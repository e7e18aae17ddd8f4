import FacesHttp3.Chunks.Station
import FacesHttp3.SendLoop.Delivery
import FacesHttp3.SendLoop.PanicFree
import FacesHttp3.Server.Responses

/-! # Responses with a file

The file system is asked three times about the file of a response: for its length when
the response is built, for its length again when the header is sent, and for its bytes
by the chunking worker. In between the file may grow, shrink or vanish, and each of the
three takes a failure in its own way. -/

namespace FacesHttp3.FileResponse
open FacesHttp3.Lib FacesHttp3.Lib.Exec FacesHttp3.Lib.Outcome FacesHttp3.Request
open FacesHttp3.Chunks (Station)
open FacesHttp3.Server (PreparationAnswers RequestResponse finalHeader processHandler status)
open FacesHttp3.SendLoop

/-! ## The file system -/

/-- A file opened by `ChunkableBody::new_file`; `reads n` is what it answers the n-th
time it is read, and `none` is an error. -/
structure OpenFile where
  metadataLen : Option Nat
  reads : Nat → Option Bytes

def OpenFile.bodyLen (file : OpenFile) : Nat := file.metadataLen.getD 0

/-- The answers for the path of one response: whether it is a file, with a length, when
the response is built; its length when the header is sent; and the file opened for the
chunking worker. `none` is an error. -/
structure FileSystem where
  metadata : Option (Bool × Nat)
  sendLen : Option Nat
  opened : Option OpenFile

namespace FileSystem

/-- The length that `build` announces. -/
def fileLen (fs : FileSystem) : Nat :=
  match fs.metadata with
  | some (isFile, len) => if isFile then len else 0
  | none => 0

/-- The answers to the network thread; the bytes come later, read by read. -/
def answers (fs : FileSystem) : FileAnswers where
  len := fs.sendLen
  content := fs.opened.map fun _ => []

def newFile (fs : FileSystem) : Option Chunks.ChunkableBody :=
  fs.opened.map fun file => { bodyLen := file.bodyLen }

def reads (fs : FileSystem) (n : Nat) : Option Bytes := fs.opened.bind fun file => file.reads n

end FileSystem

/-! ## The response -/

/-- The handlers answer with the file. The queue of the stream has no sender for its body if
it was removed since the worker inserted it. -/
def preparation (fs : FileSystem) (path : String) (bodySender : Option ChunkSender) :
    PreparationAnswers Unit Unit where
  call _ event _ := (event, .ok200File path)
  fileLen _ := fs.fileLen
  bodySender

/-- The final header that the response worker queues. -/
def prepare (fs : FileSystem) (path : String) (bodySender : Option ChunkSender) (isEnd : Bool) :
    Except Panic HeaderRequest :=
  finalHeader (preparation fs path bodySender) (processHandler (fun _ => fs.fileLen) (.ok200File path))
    isEnd .sendAdditionnalHeader

/-- The stream of the response, its body while it is in the chunking station, and a panic
of the network thread. -/
structure State where
  entries : StreamEntries
  body : Option Chunks.ChunkableBody := none
  panicked : Option Panic := none

/-- A turn of the network thread in one of its loops, with the answers of the transport, a
turn of the chunking worker, and a cancellation. -/
inductive Action
  | drain (streamWritable : Except H3Error Bool) (answers : Answers)
  | serve (answers : Answers)
  | turn (occupied : Bool)
  | resetRequested

/-- The final header is queued. -/
def queued (sender : ChunkSender) (header : HeaderRequest) : State where
  entries := { channel := some { sender, high := [.header header] } }

/-- The worker asks the counter of the queue, which outlives the channel. -/
def State.Occupied (s : State) (occupied : Bool) : Bool :=
  s.entries.channel.all fun channel =>
    occupied == decide (Chunks.Channel.lowLimit ≤ channel.low.length)

/-- What the worker cut off the body is sent into its queue. -/
def State.cut (s : State) (sender : ChunkSender) (station : Station) : State :=
  { s with
    body := station.body
    entries := station.produced.foldl (fun entries chunk => entries.pushLow sender (.body chunk))
      s.entries }

def step (fs : FileSystem) (sender : ChunkSender) (s : State) : Action → Option State
  | .drain streamWritable answers =>
    guarded (s.panicked = none) <|
      match drain true s.entries streamWritable answers with
      | .ok entries => { s with entries }
      | .error panic => { s with panicked := some panic }
  | .serve answers =>
    guarded (s.panicked = none) <|
      match serve true 0 s.entries { answers with file := fs.answers } with
      | .ok (entries, chunkable) =>
        { s with entries, body := if chunkable.isSome then fs.newFile else s.body }
      | .error panic => { s with panicked := some panic }
  | .turn occupied =>
    match s.body with
    | none => none
    | some body =>
      guarded (s.panicked = none ∧ s.Occupied occupied = true) <|
        if occupied then s
        else s.cut sender (Station.turn fs.reads { body := some body } body)
  | .resetRequested =>
    guarded (s.panicked = none) { s with entries := s.entries.resetFailedStream }

/-! ## What is promised -/

/-- The transport says whether the stream is writable, accepts the headers, and accepts
the end of the stream when it is due with the last byte. -/
def Sends (s : State) : Action → Prop
  | .drain streamWritable answers => streamWritable.isOk = true ∧ (streamWritable = .ok true →
    ∀ resp, s.entries.partialResponse = some resp → ¬ EndMissed s.entries resp answers)
  | .serve answers => answers.headers = .ok () ∧ (s.entries.partialResponse = none →
    ∀ content popped, nextItem s.entries = some (.body content, popped) →
      ¬ ChunkEndMissed s.entries content s.entries.getWritten.2 answers)
  | .turn _ | .resetRequested => True

/-- The transport takes all that it is offered, and nobody cancels. -/
def Takes (s : State) : Action → Prop
  | .drain streamWritable answers => streamWritable = .ok true ∧ answers.fin = .ok 0 ∧
    ∃ n, answers.body = .ok n ∧
      ∀ resp, s.entries.partialResponse = some resp → resp.rest.length ≤ n
  | .serve answers => answers.headers = .ok () ∧ answers.fin = .ok 0 ∧
    ∃ n, answers.body = .ok n ∧
      ∀ content popped, nextItem s.entries = some (.body content, popped) → content.packet.length ≤ n
  | .turn _ => True
  | .resetRequested => False

/-- All that was transmitted comes to its end if the transport takes it. -/
def CanEnd (fs : FileSystem) (sender : ChunkSender) (s : State) : Prop :=
  ∃ more t, exec (step fs sender) s more = some t ∧ Every (step fs sender) Takes s more ∧
    t.entries.wire.fin = true

/-- The response is prepared without a panic, and however it is sent nothing panics, and its
stream is ended or reset, or what is missing is still produced. -/
def Safe (fs : FileSystem) (path : String) (bodySender : Option ChunkSender) (isEnd : Bool) : Prop :=
  ∃ header, prepare fs path bodySender isEnd = .ok header ∧
    ∀ sender ∈ bodySender, ∀ as s, exec (step fs sender) (queued sender header) as = some s →
      Every (step fs sender) Sends (queued sender header) as →
      s.panicked = none ∧ (s.entries.wire.Over ∨ CanEnd fs sender s)

/-! ## When it is kept -/

/-- From the n-th read on, and with `written` bytes before it, some read ends exactly at
`total` bytes; the worker reads on while no read fails and the length of the body is not
met. -/
inductive Reaches (reads : Nat → Option Bytes) (bodyLen total : Nat) : Nat → Nat → Prop
  | there {n written : Nat} {packet : Bytes} (hread : reads n = some packet)
    (hend : written + packet.length = total) : Reaches reads bodyLen total n written
  | further {n written : Nat} {packet : Bytes} (hread : reads n = some packet)
    (hmore : packet.length + written ≠ bodyLen)
    (rest : Reaches reads bodyLen total (n + 1) (written + packet.length)) :
    Reaches reads bodyLen total n written

/-- The file is there when the header is sent; and it is empty then, or it can be opened
again and is read to exactly the length it had. -/
def Suits (fs : FileSystem) : Prop :=
  ∃ len, fs.sendLen = some len ∧ (len = 0 ∨ ∃ file, fs.opened = some file ∧
    Reaches file.reads file.bodyLen len 0 0)

/-! ## The header -/

section Header
variable {fs : FileSystem} {path : String} {sender : ChunkSender} {isEnd : Bool} {answers : Answers}

def fileHeader (fs : FileSystem) (path : String) (sender : ChunkSender) : HeaderRequest where
  headers := [status "200", RequestResponse.contentLengthHeader fs.fileLen]
  isEnd := false
  priorityMode := .sendAdditionnalHeader
  attachedBody := some (.filePath path (some sender))

/-- Building the response does not panic, whatever the file system answers. -/
theorem prepare_eq : prepare fs path (some sender) isEnd = .ok (fileHeader fs path sender) := rfl

/-- The worker panics without a sender for the body. -/
theorem prepare_none : prepare fs path none isEnd = .error .noSender := rfl

/-- The stream once its header was sent. -/
def sent (sender : ChunkSender) (len : Nat) : StreamEntries where
  channel := some { sender }
  headersSendingTracker := some true
  bodySendingTracker := if len = 0 then none else some (0, len)
  wire := { fin := decide (len = 0) }

theorem serve_queued (hheaders : answers.headers = .ok ()) :
    serve true 0 (queued sender (fileHeader fs path sender)).entries { answers with file := fs.answers } =
      match fs.sendLen with
      | none => .error .fileOpen
      | some len => .ok (sent sender len,
          if len = 0 then none else fs.opened.map fun _ => .newData sender 0 []) := by
  obtain ⟨metadata, sendLen, opened⟩ := fs
  obtain ⟨headers, body, fin, file⟩ := answers
  obtain rfl : headers = .ok () := hheaders
  cases sendLen with
  | none => rfl
  | some len => cases len <;> cases opened <;> rfl

end Header

/-! ## The stream while the body is sent -/

def bytesOf (chunks : List BodyRequest) : Nat := (chunks.map fun chunk => chunk.packet.length).sum

/-- The header was sent for a body of `len` bytes, the stream is neither ended nor reset,
and these chunks are queued. -/
structure Open (fs : FileSystem) (sender : ChunkSender) (len : Nat) (chunks : List BodyRequest)
    (s : State) : Prop where
  panicked : s.panicked = none
  headersSend : s.entries.headersSend = true
  tracker : s.entries.bodySendingTracker = some (s.entries.wire.accepted.length, len)
  unended : s.entries.wire.fin = false
  live : s.entries.wire.failed = false
  pending : s.entries.pendingBodyQueue = []
  resp : ∀ resp, s.entries.partialResponse = some resp →
    resp.headers = none ∧ resp.written < resp.body.length
  short : s.entries.partialResponse = none → s.entries.wire.accepted.length ≠ len
  channel : s.entries.channel = some { sender, low := chunks.map .body }
  body : ∀ body, s.body = some body → ∃ file, fs.opened = some file ∧
    body.bodyLen = file.bodyLen ∧ body.bytesWritten = s.entries.wire.accepted.length +
      (restOf s.entries.partialResponse).length + bytesOf chunks

/-- With `written` bytes before them, one of the chunks ends exactly at `total` bytes. -/
def MeetsIn (total : Nat) : Nat → List BodyRequest → Prop
  | _, [] => False
  | written, chunk :: chunks =>
    written + chunk.packet.length = total ∨ MeetsIn total (written + chunk.packet.length) chunks

/-- Some chunk under way, queued or still to be read ends exactly at the length of the body. -/
def Ahead (fs : FileSystem) (len : Nat) (chunks : List BodyRequest) (s : State) : Prop :=
  let written := s.entries.wire.accepted.length + (restOf s.entries.partialResponse).length
  (s.entries.partialResponse.isSome = true ∧ written = len) ∨ MeetsIn len written chunks ∨
    ∃ file body, fs.opened = some file ∧ s.body = some body ∧
      Reaches file.reads file.bodyLen len body.packetId body.bytesWritten

theorem meetsIn_append {total written : Nat} {chunks : List BodyRequest} {chunk : BodyRequest} :
    MeetsIn total written (chunks ++ [chunk]) ↔
      MeetsIn total written chunks ∨ written + bytesOf chunks + chunk.packet.length = total := by
  induction chunks generalizing written with
  | nil => simp [MeetsIn, bytesOf]
  | cons first chunks ih =>
    rw [List.cons_append, MeetsIn, MeetsIn, ih, or_assoc]
    simp [bytesOf, Nat.add_assoc]

section Steps
variable {fs : FileSystem} {sender : ChunkSender} {len n : Nat} {chunks : List BodyRequest}
  {chunk : BodyRequest} {s : State} {answers : Answers} {resp : PartialResponse}
  {entries' : StreamEntries}

theorem open_sent (hpos : len ≠ 0) :
    Open fs sender len [] { entries := sent sender len, body := fs.newFile } := by
  refine ⟨rfl, rfl, ?_, ?_, rfl, rfl, nofun, fun _ h => hpos h.symm, rfl, ?_⟩
  · simp [sent, hpos]
  · simp [sent, hpos]
  · intro body hbody
    obtain ⟨file, hfile, rfl⟩ := Option.map_eq_some_iff.mp hbody
    exact ⟨file, hfile, rfl, rfl⟩

/-- More of a partial response was taken. -/
theorem open_taken (h : Open fs sender len chunks s) (hresp : s.entries.partialResponse = some resp)
    (hn : n ≤ resp.rest.length) {wire : Wire}
    (haccepted : wire.accepted = s.entries.wire.accepted ++ resp.rest.take n)
    (hfin : wire.fin = false) (hlive : wire.failed = false)
    (hshort : resp.written + n = resp.body.length → s.entries.wire.accepted.length + n ≠ len) :
    Open fs sender len chunks { s with
      entries := { s.entries.sent resp.rest n with wire, partialResponse := resp.after n } } := by
  obtain ⟨hheaders, hlt⟩ := h.resp resp hresp
  have hlength : wire.accepted.length = s.entries.wire.accepted.length + n := by
    simp [haccepted, Nat.min_eq_left hn]
  refine ⟨h.panicked, h.headersSend, ?_, hfin, hlive, h.pending, ?_, ?_, h.channel, ?_⟩
  · simp [StreamEntries.sent, h.tracker, hlength]
  · intro resp' hresp'
    simp only [PartialResponse.after] at hresp'
    split at hresp'
    · cases hresp'
    · rename_i hne
      obtain rfl := Option.some.inj hresp'
      have hrest := length_rest hlt
      refine ⟨hheaders, ?_⟩
      show resp.written + n < resp.body.length
      omega
  · intro hnone
    show wire.accepted.length ≠ len
    rw [hlength]
    apply hshort
    simp only [PartialResponse.after] at hnone
    split at hnone
    · assumption
    · cases hnone
  · intro body hbody
    obtain ⟨file, hfile, hlen, hwritten⟩ := h.body body hbody
    refine ⟨file, hfile, hlen, ?_⟩
    show body.bytesWritten = wire.accepted.length + (restOf (resp.after n)).length + bytesOf chunks
    rw [hwritten, hresp, hlength, restOf_after hlt, List.length_drop, restOf]
    omega

/-- What is taken of a partial response brings no chunk's end nearer to the length. -/
theorem ahead_taken (h : Open fs sender len chunks s) (hresp : s.entries.partialResponse = some resp)
    (hn : n ≤ resp.rest.length) {t : State} (hbody : t.body = s.body)
    (hafter : t.entries.partialResponse = resp.after n)
    (hlength : t.entries.wire.accepted.length = s.entries.wire.accepted.length + n)
    (hshort : resp.written + n = resp.body.length → s.entries.wire.accepted.length + n ≠ len)
    (hahead : Ahead fs len chunks s) : Ahead fs len chunks t := by
  obtain ⟨-, hlt⟩ := h.resp resp hresp
  have hwritten : t.entries.wire.accepted.length + (restOf t.entries.partialResponse).length =
      s.entries.wire.accepted.length + (restOf s.entries.partialResponse).length := by
    rw [hafter, hresp, hlength, restOf_after hlt, List.length_drop, restOf]
    omega
  unfold Ahead at hahead ⊢
  rw [hwritten, hbody]
  obtain ⟨-, hend⟩ | hahead := hahead
  · left
    refine ⟨?_, hend⟩
    rw [hafter, PartialResponse.after]
    split
    · rename_i hall
      have hrest := length_rest hlt
      rw [hresp, restOf] at hend
      exact absurd (by omega) (hshort hall)
    · rfl
  · exact .inr hahead

/-- A round of the first loop on a partial response. -/
theorem open_drained (h : Open fs sender len chunks s) (hresp : s.entries.partialResponse = some resp)
    (hd : Drained s.entries resp answers entries') (hkept : ¬ EndMissed s.entries resp answers) :
    entries'.wire.Over ∨ ∃ n, s.entries.wire.taken resp.rest answers.body = some n ∧
      Open fs sender len chunks { s with entries := entries' } ∧
      entries'.partialResponse = resp.after n ∧
      (Ahead fs len chunks s → Ahead fs len chunks { s with entries := entries' }) := by
  have hwritten : s.entries.getWritten = (s.entries.wire.accepted.length, len) := by
    simp [StreamEntries.getWritten, h.tracker]
  -- the stream is still open, with `n` more bytes on it
  have hopen : ∀ {n : Nat} {wire : Wire}, s.entries.wire.taken resp.rest answers.body = some n →
      wire.accepted = s.entries.wire.accepted ++ resp.rest.take n → wire.fin = false →
      wire.failed = false →
      (resp.written + n = resp.body.length → s.entries.wire.accepted.length + n ≠ len) →
      Open fs sender len chunks { s with
        entries := { s.entries.sent resp.rest n with wire, partialResponse := resp.after n } } ∧
      (Ahead fs len chunks s → Ahead fs len chunks { s with
        entries := { s.entries.sent resp.rest n with wire, partialResponse := resp.after n } }) := by
    intro n wire htaken haccepted hfin hlive hshort
    have hn := taken_le htaken
    refine ⟨open_taken h hresp hn haccepted hfin hlive hshort, ahead_taken h hresp hn rfl rfl ?_ hshort⟩
    simp [haccepted, Nat.min_eq_left hn]
  cases hd with
  | failed => exact .inl (.inr rfl)
  | @wrote n htaken hdue =>
    have hshort : resp.written + n = resp.body.length → s.entries.wire.accepted.length + n ≠ len := by
      intro hall hsum
      refine hdue ?_
      simp only [EndDue, hall, if_true, hwritten]
      omega
    have hput : (s.entries.wire.put (resp.rest.take n)).accepted =
        s.entries.wire.accepted ++ resp.rest.take n := rfl
    obtain ⟨hopen, hahead⟩ := hopen htaken hput h.unended h.live hshort
    exact .inr ⟨n, htaken, hopen, rfl, hahead⟩
  | @ended n htaken hdue =>
    cases hend : s.entries.wire.endTaken answers.fin with
    | true => exact .inl (.inl (by simp [Wire.putEnd]))
    | false =>
      have hlast : resp.written + n ≠ resp.body.length := fun hlast =>
        hkept ⟨n, htaken, hdue, hlast, hend⟩
      have hfin : ((s.entries.wire.put (resp.rest.take n)).putEnd false).fin = false := by
        simp [Wire.putEnd, Wire.put, h.unended]
      obtain ⟨hopen, hahead⟩ := hopen htaken rfl hfin h.live fun hall => absurd hall hlast
      exact .inr ⟨n, htaken, hopen, rfl, hahead⟩
  | endFailed => exact .inl (.inr rfl)

/-! ## A queued chunk -/

/-- The stream without the chunk that is served. -/
def popped (sender : ChunkSender) (chunks : List BodyRequest) (s : State) : StreamEntries :=
  { s.entries with channel := some { sender, low := chunks.map .body } }

theorem nextItem_open (h : Open fs sender len (chunk :: chunks) s) :
    nextItem s.entries = some (.body chunk, popped sender chunks s) := by
  rw [nextItem_of_empty h.pending, h.channel]
  rfl

theorem nextItem_open_nil (h : Open fs sender len [] s) : nextItem s.entries = none := by
  rw [nextItem_of_empty h.pending, h.channel]
  rfl

theorem length_leftOver {e : StreamEntries} {data : Bytes} (hnone : e.partialResponse = none)
    (hn : n ≤ data.length) : n + (restOf (leftOver e data n)).length = data.length := by
  rw [restOf_leftOver hnone hn, List.length_drop]
  omega

/-- One chunk is served. -/
theorem open_served (h : Open fs sender len (chunk :: chunks) s)
    (hnone : s.entries.partialResponse = none)
    (hs : ServedBody (popped sender chunks s) chunk s.entries.wire.accepted.length len answers entries')
    (hkept : ¬ ChunkEndMissed s.entries chunk len answers) :
    entries'.wire.Over ∨ ∃ n, s.entries.wire.taken chunk.packet answers.body = some n ∧
      entries'.partialResponse = leftOver (popped sender chunks s) chunk.packet n ∧
      entries'.wire.accepted.length = s.entries.wire.accepted.length + n ∧
      s.entries.wire.accepted.length + n ≠ len ∧
      Open fs sender len chunks { s with entries := entries' } := by
  have hpopped : (popped sender chunks s).partialResponse = none := hnone
  have hmissed : ∀ n, s.entries.wire.taken chunk.packet answers.body = some n →
      s.entries.wire.accepted.length + n = len → s.entries.wire.endTaken answers.fin = true := by
    intro n htaken hall
    by_contra hend
    refine hkept ⟨n, htaken, ?_, by simpa using hend⟩
    simpa [StreamEntries.getWritten, h.tracker] using hall
  cases hs with
  | failed => exact .inl (.inr rfl)
  | @wrote n htaken hmore =>
    have hn := taken_le htaken
    have hlength : (s.entries.wire.put (chunk.packet.take n)).accepted.length =
        s.entries.wire.accepted.length + n := by
      simp [Wire.put, Nat.min_eq_left hn]
    refine .inr ⟨n, htaken, rfl, hlength, hmore, ?_⟩
    refine ⟨h.panicked, h.headersSend, ?_, h.unended, h.live, h.pending, ?_, ?_, rfl, ?_⟩
    · simp [StreamEntries.sent, popped, h.tracker, hlength]
    · intro resp hresp
      simp only [leftOver, hpopped] at hresp
      split at hresp
      · obtain rfl := Option.some.inj hresp
        exact ⟨rfl, ‹_›⟩
      · cases hresp
    · intro _
      exact hlength ▸ hmore
    · intro body hbody
      obtain ⟨file, hfile, hlen, hwritten⟩ := h.body body hbody
      refine ⟨file, hfile, hlen, ?_⟩
      have hleft := length_leftOver hpopped hn
      show body.bytesWritten = (s.entries.wire.put (chunk.packet.take n)).accepted.length +
        (restOf (leftOver (popped sender chunks s) chunk.packet n)).length + bytesOf chunks
      rw [hwritten, hnone, hlength, restOf, bytesOf, List.map_cons, List.sum_cons, bytesOf,
        List.length_nil]
      omega
  | @ended n htaken hall => exact .inl (.inl (by simp [Wire.putEnd, hmissed n htaken hall, popped]))
  | @endFailed n htaken hall hrejected =>
    have hend := hmissed n htaken hall
    rw [show s.entries.wire.endTaken answers.fin = false from endTaken_of_not_taken hrejected] at hend
    cases hend

/-- Nor does a chunk that is served, unless it is the one that ends there. -/
theorem ahead_served (hnone : s.entries.partialResponse = none) {t : State} (hbody : t.body = s.body)
    (hn : n ≤ chunk.packet.length)
    (hafter : t.entries.partialResponse = leftOver (popped sender chunks s) chunk.packet n)
    (hlength : t.entries.wire.accepted.length = s.entries.wire.accepted.length + n)
    (hmore : s.entries.wire.accepted.length + n ≠ len) :
    Ahead fs len (chunk :: chunks) s ↔ Ahead fs len chunks t := by
  have hpopped : (popped sender chunks s).partialResponse = none := hnone
  have hleft := length_leftOver hpopped hn
  rw [← hafter] at hleft
  have hwritten : t.entries.wire.accepted.length + (restOf t.entries.partialResponse).length =
      s.entries.wire.accepted.length + chunk.packet.length := by
    omega
  have hpartial : t.entries.partialResponse.isSome = true ↔ n < chunk.packet.length := by
    rw [hafter, leftOver, hpopped]
    split <;> simp_all
  unfold Ahead
  rw [hwritten, hbody, hnone, hpartial]
  simp only [restOf, List.length_nil, Nat.add_zero, Option.isSome_none, Bool.false_eq_true,
    false_and, false_or, MeetsIn, or_assoc]
  refine or_congr ?_ Iff.rfl
  constructor
  · intro hend
    refine ⟨?_, hend⟩
    omega
  · exact And.right

/-! ## The chunking worker -/

theorem cut_of_error {body : Chunks.ChunkableBody} (hread : fs.reads body.packetId = none) :
    s.cut sender (Station.turn fs.reads { body := some body } body) = { s with body := none } := by
  simp [Station.turn, hread, State.cut, Chunks.Channel.new, Chunks.ChunkCounter.isOccupied,
    Chunks.Channel.lowLimit]

/-- The chunk of a packet that was read. -/
def chunkOf (body : Chunks.ChunkableBody) (packet : Bytes) : BodyRequest :=
  ⟨body.packetId, packet, packet.length + body.bytesWritten == body.bodyLen⟩

def bodyAfter (body : Chunks.ChunkableBody) (packet : Bytes) : Option Chunks.ChunkableBody :=
  if packet.length + body.bytesWritten = body.bodyLen then none
  else some ⟨body.bodyLen, body.packetId + 1, body.bytesWritten + packet.length⟩

theorem cut_of_packet {body : Chunks.ChunkableBody} {packet : Bytes}
    (hread : fs.reads body.packetId = some packet) :
    s.cut sender (Station.turn fs.reads { body := some body } body) =
      { s with
        body := bodyAfter body packet
        entries := s.entries.pushLow sender (.body (chunkOf body packet)) } := by
  simp [Station.turn, hread, State.cut, Chunks.Channel.new, Chunks.ChunkCounter.isOccupied,
    Chunks.Channel.lowLimit, bodyAfter, chunkOf]

theorem bytesOf_append : bytesOf (chunks ++ [chunk]) = bytesOf chunks + chunk.packet.length := by
  simp [bytesOf]

/-- The worker drops the body of which a read failed. -/
theorem open_failed (h : Open fs sender len chunks s) :
    Open fs sender len chunks { s with body := none } :=
  ⟨h.panicked, h.headersSend, h.tracker, h.unended, h.live, h.pending, h.resp, h.short, h.channel,
    nofun⟩

theorem ahead_failed {body : Chunks.ChunkableBody} (hbody : s.body = some body)
    (hread : fs.reads body.packetId = none) (hahead : Ahead fs len chunks s) :
    Ahead fs len chunks { s with body := none } := by
  obtain hpartial | hin | ⟨file, body', hfile, hbody', hreaches⟩ := hahead
  · exact .inl hpartial
  · exact .inr (.inl hin)
  · cases hbody.symm.trans hbody'
    rw [FileSystem.reads, hfile, Option.bind_some] at hread
    cases hreaches with
    | there hread' => cases hread.symm.trans hread'
    | further hread' => cases hread.symm.trans hread'

theorem pushLow_open (h : Open fs sender len chunks s) (chunk : BodyRequest) :
    s.entries.pushLow sender (.body chunk) =
      { s.entries with channel := some { sender, low := (chunks ++ [chunk]).map .body } } := by
  simp [StreamEntries.pushLow, h.channel]

theorem open_cut {body : Chunks.ChunkableBody} {packet : Bytes} (h : Open fs sender len chunks s)
    (hbody : s.body = some body) :
    Open fs sender len (chunks ++ [chunkOf body packet]) { s with
      body := bodyAfter body packet
      entries := s.entries.pushLow sender (.body (chunkOf body packet)) } := by
  rw [pushLow_open h]
  refine ⟨h.panicked, h.headersSend, h.tracker, h.unended, h.live, h.pending, h.resp, h.short, rfl, ?_⟩
  intro body' hbody'
  obtain ⟨file, hfile, hlen, hwritten⟩ := h.body body hbody
  simp only [bodyAfter] at hbody'
  split at hbody'
  · cases hbody'
  · cases hbody'
    refine ⟨file, hfile, hlen, ?_⟩
    rw [bytesOf_append, chunkOf]
    dsimp only
    omega

/-- A turn of the worker brings the next end of a chunk into the queue. -/
theorem ahead_cut {body : Chunks.ChunkableBody} {packet : Bytes} (h : Open fs sender len chunks s)
    (hbody : s.body = some body) (hread : fs.reads body.packetId = some packet) :
    Ahead fs len chunks s ↔ Ahead fs len (chunks ++ [chunkOf body packet]) { s with
      body := bodyAfter body packet
      entries := s.entries.pushLow sender (.body (chunkOf body packet)) } := by
  obtain ⟨file, hfile, hlen, hwritten⟩ := h.body body hbody
  have hreads : fs.reads = file.reads := by
    funext n
    rw [FileSystem.reads, hfile, Option.bind_some]
  rw [hreads] at hread
  have hnext : (∃ file' body', fs.opened = some file' ∧ s.body = some body' ∧
        Reaches file'.reads file'.bodyLen len body'.packetId body'.bytesWritten) ↔
      body.bytesWritten + packet.length = len ∨ ∃ file' body', fs.opened = some file' ∧
        bodyAfter body packet = some body' ∧
          Reaches file'.reads file'.bodyLen len body'.packetId body'.bytesWritten := by
    constructor
    · intro ⟨file', body', hfile', hbody', hreaches⟩
      cases hfile.symm.trans hfile'
      cases hbody.symm.trans hbody'
      cases hreaches with
      | there hread' hend =>
        cases hread.symm.trans hread'
        exact .inl hend
      | further hread' hmore rest =>
        cases hread.symm.trans hread'
        rw [← hlen] at hmore
        exact .inr ⟨file, _, hfile, if_neg hmore, rest⟩
    · intro hahead
      refine ⟨file, body, hfile, hbody, ?_⟩
      obtain hend | ⟨file', body', hfile', hbody', hreaches⟩ := hahead
      · exact .there hread hend
      · cases hfile.symm.trans hfile'
        simp only [bodyAfter] at hbody'
        split at hbody'
        · cases hbody'
        · rename_i hmore
          cases hbody'
          rw [hlen] at hmore
          exact .further hread hmore hreaches
  rw [pushLow_open h]
  unfold Ahead
  dsimp only
  rw [meetsIn_append, hnext, or_assoc, hwritten]
  rfl

/-! ## The machine on an open stream -/

theorem Open.sound (h : Open fs sender len chunks s) : Sound true s.entries where
  written := fun resp hresp => Nat.le_of_lt (h.resp resp hresp).2
  senders := by
    intro item hitem
    rw [queuedItems, h.pending, h.channel] at hitem
    obtain ⟨body, -, rfl⟩ := List.mem_map.mp hitem
    trivial
  connected := nofun

theorem drained_of_open (h : Open fs sender len chunks s) (hresp : s.entries.partialResponse = some resp)
    (hd : drain true s.entries (.ok true) answers = .ok entries') :
    Drained s.entries resp answers entries' := by
  obtain ⟨hheaders, hlt⟩ := h.resp resp hresp
  simp only [drain, h.headersSend, if_true, hresp, handleWritable, withHttp3Conn, hheaders] at hd
  split at hd
  · cases hd
  · rename_i hbody
    cases hd
    exact handleWritableBody_drained hlt hbody

theorem step_drain_open {streamWritable : Except H3Error Bool} (h : Open fs sender len chunks s)
    (hok : streamWritable.isOk = true) :
    step fs sender s (.drain streamWritable answers) = some s ∨
      ∃ resp entries', streamWritable = .ok true ∧ s.entries.partialResponse = some resp ∧
        Drained s.entries resp answers entries' ∧
        step fs sender s (.drain streamWritable answers) = some { s with entries := entries' } := by
  have hdrain : ∃ next, drain true s.entries streamWritable answers = .ok next :=
    (drain_ok_iff h.sound).mpr fun _ => hok
  obtain ⟨next, hnext⟩ := hdrain
  have hstep : step fs sender s (.drain streamWritable answers) = some { s with entries := next } := by
    simp [step, h.panicked, hnext]
  obtain rfl | ⟨resp, hwritable, hresp, hdrained⟩ := drain_cases h.resp hnext
  · exact .inl hstep
  · exact .inr ⟨resp, next, hwritable, hresp, hdrained, hstep⟩

theorem step_serve_open (h : Open fs sender len (chunk :: chunks) s)
    (hnone : s.entries.partialResponse = none) :
    ∃ entries', ServedBody (popped sender chunks s) chunk s.entries.wire.accepted.length len
        { answers with file := fs.answers } entries' ∧
      step fs sender s (.serve answers) = some { s with entries := entries' } := by
  have hitem := nextItem_open h
  obtain ⟨next, hnext, -⟩ := serveBody_sound (nextItem_sound h.sound hitem).2 chunk
    { answers with file := fs.answers }
  have hserve : serve true 0 s.entries { answers with file := fs.answers } = .ok (next, none) := by
    simp [serve, hnone, hitem, hnext, bind, Except.bind, pure, Except.pure]
  refine ⟨next, ?_, by simp [step, h.panicked, hserve]⟩
  have hheaders : (popped sender chunks s).headersSend = true := h.headersSend
  have htracker : (popped sender chunks s).bodySendingTracker =
      some (s.entries.wire.accepted.length, len) := h.tracker
  exact serveBody_cases hheaders htracker (h.short hnone) hnext

/-- While a partial response is left, or nothing is queued, nothing is served. -/
theorem step_serve_idle (h : Open fs sender len chunks s)
    (hidle : s.entries.partialResponse.isSome = true ∨ chunks = []) :
    step fs sender s (.serve answers) = some s := by
  have hserve : serve true 0 s.entries { answers with file := fs.answers } = .ok (s.entries, none) := by
    unfold serve
    obtain hsome | rfl := hidle
    · simp [hsome]
    · simp [nextItem_open_nil h]
  simp only [step, hserve]
  exact guarded_eq_some_iff.mpr ⟨h.panicked, by simp⟩

/-- The worker waits, drops the body, or cuts a chunk off. -/
theorem step_turn {occupied : Bool} {t : State} (hstep : step fs sender s (.turn occupied) = some t) :
    ∃ body, s.body = some body ∧ s.panicked = none ∧
      (t = s ∨ (fs.reads body.packetId = none ∧ t = { s with body := none }) ∨
        ∃ packet, fs.reads body.packetId = some packet ∧ t = { s with
          body := bodyAfter body packet
          entries := s.entries.pushLow sender (.body (chunkOf body packet)) }) := by
  unfold step at hstep
  dsimp only at hstep
  split at hstep
  · cases hstep
  · rename_i body hbody
    obtain ⟨⟨hpanicked, -⟩, rfl⟩ := guarded_eq_some_iff.mp hstep
    refine ⟨body, hbody, hpanicked, ?_⟩
    split
    · exact .inl rfl
    · right
      cases hread : fs.reads body.packetId with
      | none => exact .inl ⟨rfl, cut_of_error hread⟩
      | some packet => exact .inr ⟨packet, rfl, cut_of_packet hread⟩

/-! ## A transport that takes all -/

theorem taken_of_live {wire : Wire} {data : Bytes} {answer : Except H3Error Nat}
    (hlive : wire.failed = false) (hanswer : answer = .ok n) (hn : data.length ≤ n) :
    wire.taken data answer = some data.length := by
  simp [Wire.taken, hlive, hanswer, hn]

theorem endTaken_of_live {wire : Wire} {answer : Except H3Error Nat} (hlive : wire.failed = false)
    (hanswer : answer = .ok n) : wire.endTaken answer = true := by
  simp [Wire.endTaken, hlive, hanswer, Except.isOk, Except.toBool]

/-- A partial response is taken whole: the stream ends with it, or nothing of it is left. -/
theorem drained_whole (h : Open fs sender len chunks s) (hresp : s.entries.partialResponse = some resp)
    (hd : Drained s.entries resp answers entries') (hfin : answers.fin = .ok 0)
    (hbody : answers.body = .ok n) (hn : resp.rest.length ≤ n) :
    entries'.wire.fin = true ∨ (Open fs sender len chunks { s with entries := entries' } ∧
      entries'.partialResponse = none ∧
      (Ahead fs len chunks s → Ahead fs len chunks { s with entries := entries' })) := by
  have hrest := length_rest (h.resp resp hresp).2
  have htaken := taken_of_live h.live hbody hn
  have hend := endTaken_of_live h.live hfin
  have hempty : s.entries.wire.taken [] answers.fin = some 0 := by
    simp [Wire.taken, h.live, hfin]
  have hkept : ¬ EndMissed s.entries resp answers := by
    intro hendMissed
    obtain ⟨_, _, _, _, hmissed⟩ := hendMissed
    rw [hend] at hmissed
    cases hmissed
  obtain hover | ⟨m, htaken', hopen, hafter, hahead⟩ := open_drained h hresp hd hkept
  · left
    obtain hfin | hfailed := hover
    · exact hfin
    · -- no call fails
      cases hd with
      | failed htaken' => cases htaken.symm.trans htaken'
      | wrote => cases h.live.symm.trans hfailed
      | ended => cases h.live.symm.trans hfailed
      | endFailed _ _ hrejected => cases hempty.symm.trans hrejected
  · right
    refine ⟨hopen, ?_, hahead⟩
    cases htaken.symm.trans htaken'
    rw [hafter, PartialResponse.after, if_pos hrest]

/-- So is a chunk: the stream ends with it if it meets the length. -/
theorem served_whole (h : Open fs sender len (chunk :: chunks) s)
    (hnone : s.entries.partialResponse = none)
    (hs : ServedBody (popped sender chunks s) chunk s.entries.wire.accepted.length len answers entries')
    (hfin : answers.fin = .ok 0) (hbody : answers.body = .ok n) (hn : chunk.packet.length ≤ n) :
    (s.entries.wire.accepted.length + chunk.packet.length = len ∧
      entries'.wire.fin = true ∧ entries'.wire.accepted.length = len ∧
      entries'.partialResponse = none ∧ entries'.pendingBodyQueue = [] ∧ entries'.channel = none) ∨
    (s.entries.wire.accepted.length + chunk.packet.length ≠ len ∧
      Open fs sender len chunks { s with entries := entries' } ∧ entries'.partialResponse = none ∧
      (Ahead fs len (chunk :: chunks) s ↔ Ahead fs len chunks { s with entries := entries' })) := by
  have htaken := taken_of_live h.live hbody hn
  have hend := endTaken_of_live h.live hfin
  have hpopped : (popped sender chunks s).partialResponse = none := hnone
  have hkept : ¬ ChunkEndMissed s.entries chunk len answers := by
    intro ⟨_, _, _, hmissed⟩
    rw [hend] at hmissed
    cases hmissed
  have hwhole : leftOver (popped sender chunks s) chunk.packet chunk.packet.length = none := by
    simp [leftOver, hpopped]
  by_cases hall : s.entries.wire.accepted.length + chunk.packet.length = len
  · left
    refine ⟨hall, ?_⟩
    cases hs with
    | failed htaken' => cases htaken.symm.trans htaken'
    | wrote htaken' hmore =>
      cases htaken.symm.trans htaken'
      exact absurd hall hmore
    | ended htaken' =>
      cases htaken.symm.trans htaken'
      refine ⟨?_, ?_, hwhole, rfl, rfl⟩
      · simp [Wire.putEnd, popped, hend]
      · simp [Wire.putEnd, Wire.put, popped, hall]
    | endFailed _ _ hrejected =>
      have hmissed : s.entries.wire.endTaken answers.fin = false := endTaken_of_not_taken hrejected
      rw [hend] at hmissed
      cases hmissed
  · right
    obtain hover | ⟨m, htaken', hafter, hlength, hmore, hopen⟩ := open_served h hnone hs hkept
    · exfalso
      cases hs with
      | failed htaken' => cases htaken.symm.trans htaken'
      | wrote =>
        obtain hended | hfailed := hover
        · cases h.unended.symm.trans hended
        · cases h.live.symm.trans hfailed
      | ended htaken' hsum =>
        cases htaken.symm.trans htaken'
        exact hall hsum
      | endFailed htaken' hsum =>
        cases htaken.symm.trans htaken'
        exact hall hsum
    · cases htaken.symm.trans htaken'
      refine ⟨hall, hopen, hafter.trans hwhole, ?_⟩
      exact ahead_served hnone rfl (Nat.le_refl _) hafter hlength hmore

/-! ## The end can be reached -/

theorem canEnd_of_fin (h : s.entries.wire.fin = true) : CanEnd fs sender s := ⟨[], s, rfl, trivial, h⟩

theorem CanEnd.of_step {a : Action} {t : State} (h : CanEnd fs sender t) (htakes : Takes s a)
    (hstep : step fs sender s a = some t) : CanEnd fs sender s := by
  obtain ⟨more, u, hrun, hevery, hfin⟩ := h
  refine ⟨a :: more, u, ?_, ⟨htakes, ?_⟩, hfin⟩
  · rw [exec_cons, hstep]
    exact hrun
  · intro v hv
    cases hstep.symm.trans hv
    exact hevery

/-- The next chunk is served, and the rest can come to the end. -/
theorem canEnd_served (h : Open fs sender len (chunk :: chunks) s)
    (hnone : s.entries.partialResponse = none)
    (hrest : ∀ t : State, t.body = s.body → s.entries.wire.accepted.length + chunk.packet.length ≠ len →
      Open fs sender len chunks t → t.entries.partialResponse = none →
      (Ahead fs len (chunk :: chunks) s ↔ Ahead fs len chunks t) → CanEnd fs sender t) :
    CanEnd fs sender s := by
  let answers : Answers := { body := .ok chunk.packet.length }
  obtain ⟨entries', hs, hstep⟩ : ∃ entries', ServedBody (popped sender chunks s) chunk
      s.entries.wire.accepted.length len { answers with file := fs.answers } entries' ∧
      step fs sender s (.serve answers) = some { s with entries := entries' } := step_serve_open h hnone
  have htakes : Takes s (.serve answers) := by
    refine ⟨rfl, rfl, _, rfl, ?_⟩
    intro content popped hitem
    cases (nextItem_open h).symm.trans hitem
    exact Nat.le_refl _
  refine CanEnd.of_step ?_ htakes hstep
  obtain ⟨-, hfin, -⟩ | ⟨hmore, hopen, hpartial, hahead⟩ :=
    served_whole h hnone hs rfl rfl (Nat.le_refl _)
  · exact canEnd_of_fin hfin
  · exact hrest _ rfl hmore hopen hpartial hahead

/-- With nothing queued the worker reads on to the length of the body. -/
theorem canEnd_empty {file : OpenFile} {written : Nat} (hfile : fs.opened = some file)
    (hreaches : Reaches file.reads file.bodyLen len n written) {body : Chunks.ChunkableBody}
    (h : Open fs sender len [] s) (hnone : s.entries.partialResponse = none)
    (hbody : s.body = some body) (hid : body.packetId = n) (hwritten : body.bytesWritten = written) :
    CanEnd fs sender s := by
  -- one read, whose chunk is served at once
  have hturn : ∀ {s : State} {body : Chunks.ChunkableBody} {packet : Bytes},
      Open fs sender len [] s → s.entries.partialResponse = none → s.body = some body →
      file.reads body.packetId = some packet →
      (∀ t : State, t.body = bodyAfter body packet → body.bytesWritten + packet.length ≠ len →
        Open fs sender len [] t → t.entries.partialResponse = none → CanEnd fs sender t) →
      CanEnd fs sender s := by
    intro s body packet h hnone hbody hread hrest
    have hreads : fs.reads body.packetId = some packet := by
      rw [FileSystem.reads, hfile, Option.bind_some, hread]
    have hstep : step fs sender s (.turn false) = some { s with
        body := bodyAfter body packet
        entries := s.entries.pushLow sender (.body (chunkOf body packet)) } := by
      simp only [step, hbody]
      refine guarded_eq_some_iff.mpr ⟨⟨h.panicked, ?_⟩, ?_⟩
      · simp [State.Occupied, h.channel, Chunks.Channel.lowLimit]
      · exact cut_of_packet hreads
    obtain ⟨-, -, -, hcount⟩ := h.body body hbody
    have htakes : Takes s (.turn false) := trivial
    refine CanEnd.of_step (canEnd_served (open_cut h hbody) ?_ ?_) htakes hstep
    · rw [pushLow_open h]
      exact hnone
    · intro t hbody' hmore hopen hpartial _
      refine hrest t hbody' ?_ hopen hpartial
      rw [pushLow_open h] at hmore
      rw [hcount, hnone]
      exact hmore
  induction hreaches generalizing s body with
  | @there n written packet hread hend =>
    refine hturn h hnone hbody (hid ▸ hread) fun t _ hmore => ?_
    rw [hwritten] at hmore
    exact absurd hend hmore
  | @further n written packet hread hmore rest ih =>
    refine hturn h hnone hbody (hid ▸ hread) fun t hbody' _ hopen hpartial => ?_
    obtain ⟨file', hfile', hlen, -⟩ := h.body body hbody
    cases hfile.symm.trans hfile'
    have hnext : t.body = some ⟨body.bodyLen, body.packetId + 1, body.bytesWritten + packet.length⟩ := by
      rw [hbody', bodyAfter, if_neg]
      rwa [hlen, hwritten]
    refine ih hopen hpartial hnext ?_ ?_
    · rw [hid]
    · rw [hwritten]

theorem canEnd_queue (h : Open fs sender len chunks s) (hnone : s.entries.partialResponse = none)
    (hahead : Ahead fs len chunks s) : CanEnd fs sender s := by
  induction chunks generalizing s with
  | nil =>
    obtain ⟨hsome, -⟩ | hin | ⟨file, body, hfile, hbody, hreaches⟩ := hahead
    · rw [hnone] at hsome
      cases hsome
    · exact hin.elim
    · exact canEnd_empty hfile hreaches h hnone hbody rfl rfl
  | cons chunk chunks ih =>
    refine canEnd_served h hnone ?_
    intro t _ _ hopen hpartial hiff
    exact ih hopen hpartial (hiff.mp hahead)

theorem canEnd_open (h : Open fs sender len chunks s) (hahead : Ahead fs len chunks s) :
    CanEnd fs sender s := by
  cases hresp : s.entries.partialResponse with
  | none => exact canEnd_queue h hresp hahead
  | some resp =>
    let answers : Answers := { body := .ok resp.rest.length }
    have htakes : Takes s (.drain (.ok true) answers) := by
      refine ⟨rfl, rfl, _, rfl, ?_⟩
      intro resp' hresp'
      cases hresp.symm.trans hresp'
      exact Nat.le_refl _
    obtain ⟨next, hnext⟩ : ∃ next, drain true s.entries (.ok true) answers = .ok next :=
      (drain_ok_iff h.sound).mpr fun _ => rfl
    have hstep : step fs sender s (.drain (.ok true) answers) = some { s with entries := next } := by
      simp [step, h.panicked, hnext]
    refine CanEnd.of_step ?_ htakes hstep
    obtain hfin | ⟨hopen, hpartial, hahead'⟩ :=
      drained_whole h hresp (drained_of_open h hresp hnext) rfl rfl (Nat.le_refl _)
    · exact canEnd_of_fin hfin
    · exact canEnd_queue hopen hpartial (hahead' hahead)

end Steps

end FacesHttp3.FileResponse
