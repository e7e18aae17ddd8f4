import FacesHttp3.SendLoop.Machine
import FacesHttp3.SendLoop.Sends

/-! # Delivery of a response body

A body, from memory or from a file, goes from its header through the chunking worker,
the queue of its stream and the partial response to the transport. As long as no call
fails nothing is lost on the way: what was accepted, the partial response, the queue and
the rest at the worker make up the body. The end of the stream is another matter,
see `EndInOrder` and `EndTaken`. -/

namespace FacesHttp3.SendLoop
open FacesHttp3.Lib FacesHttp3.Lib.Exec FacesHttp3.Lib.Outcome FacesHttp3.Request

def restOf (partialResponse : Option PartialResponse) : Bytes :=
  match partialResponse with
  | some resp => resp.rest
  | none => []

def packetOf : QueuedRequest → Bytes
  | .body body => body.packet
  | _ => []

/-- The bytes of the chunks queued. -/
def queuedBytes (entries : StreamEntries) : Bytes :=
  match entries.channel with
  | some channel => channel.low.flatMap packetOf
  | none => []

def readers (chunkables : List ChunkableBody) : Bytes := chunkables.flatMap ChunkableBody.reader

/-! ## Phases of a response -/

/-- An intermediate header, sent before the response. -/
def Interim (item : QueuedRequest) : Prop :=
  ∃ header, item = .header header ∧ header.priorityMode = .sendHeader100 ∧ header.isEnd = false

/-- Where the bytes of an attached body come from. -/
inductive BodySource
  | data
  | filePath (path : String)

def BodySource.body (bytes : Bytes) (sender : ChunkSender) : BodySource → BodyType
  | .data => .data bytes (some sender)
  | .filePath path => .filePath path (some sender)

/-- The source has these bytes: a file has their length when it is measured, and they are
what it has when it is opened to be cut. -/
def BodySource.Reads (bytes : Bytes) (file : FileAnswers) : BodySource → Prop
  | .data => True
  | .filePath _ => file.len = some bytes.length ∧ file.content = some bytes

/-- The final header of a response with the body `bytes`. -/
def Final (source : BodySource) (bytes : Bytes) (sender : ChunkSender) (item : QueuedRequest) : Prop :=
  ∃ header, item = .header header ∧
    (header.priorityMode = .sendHeader ∨ header.priorityMode = .sendAdditionnalHeader) ∧
    header.isEnd = false ∧ header.attachedBody = some (source.body bytes sender)

/-- The final header waits behind intermediate ones, or is parked, and nothing of
the body was sent. -/
structure Queued (source : BodySource) (bytes : Bytes) (entries : StreamEntries)
    (chunkables : List ChunkableBody) : Prop where
  partialResponse : entries.partialResponse = none
  tracker : entries.bodySendingTracker = none
  wire : entries.wire = {}
  chunkables : chunkables = []
  header : ∃ channel, entries.channel = some channel ∧ channel.low = [] ∧
    ((∃ interim final, channel.high = interim ++ [final] ∧
        (∀ item ∈ interim ++ entries.pendingBodyQueue, Interim item) ∧
        Final source bytes channel.sender final) ∨
      (channel.high = [] ∧ ∃ final, entries.pendingBodyQueue = [final] ∧
        Final source bytes channel.sender final))

/-- What is left to be cut is at the chunking worker, which can still queue it. -/
def Cutting (entries : StreamEntries) (chunkables : List ChunkableBody) : Prop :=
  chunkables = [] ∨ ∃ chunkable channel, chunkables = [chunkable] ∧
    entries.channel = some channel ∧ channel.sender = chunkable.sender ∧
    chunkable.reader ≠ [] ∧
    chunkable.reader.length + chunkable.bytesWritten = chunkable.bodyLen

/-- The header was sent and no call failed. -/
structure Sending (bytes : Bytes) (entries : StreamEntries) (chunkables : List ChunkableBody) :
    Prop where
  headersSend : entries.headersSend = true
  tracker : entries.bodySendingTracker = some (entries.wire.accepted.length, bytes.length)
  live : entries.wire.failed = false
  pending : entries.pendingBodyQueue = []
  resp : ∀ resp, entries.partialResponse = some resp →
    resp.headers = none ∧ resp.written < resp.body.length
  channel : ∀ channel, entries.channel = some channel → channel.high = [] ∧
    ∀ item ∈ channel.low, ∃ body, item = .body body ∧ body.packet ≠ []
  cutting : Cutting entries chunkables
  conserved : entries.wire.accepted ++
    (restOf entries.partialResponse ++ (queuedBytes entries ++ readers chunkables)) = bytes

/-- A call failed: nothing is accepted any more. -/
structure Failing (bytes : Bytes) (entries : StreamEntries) : Prop where
  headersSend : entries.headersSend = true
  accepted : entries.wire.accepted <+: bytes
  tracker : entries.bodySendingTracker = some (entries.wire.accepted.length, bytes.length)
  failed : entries.wire.failed = true
  pending : ∀ item ∈ entries.pendingBodyQueue, ∃ body, item = .body body
  channel : ∀ channel, entries.channel = some channel → channel.high = [] ∧
    ∀ item ∈ channel.low, ∃ body, item = .body body

/-- The stream was shut down: nothing of it is left but the record of what was sent. -/
structure Stopped (bytes : Bytes) (entries : StreamEntries) : Prop where
  accepted : entries.wire.accepted <+: bytes
  written : entries.getWritten.1 = entries.wire.accepted.length
  partialResponse : entries.partialResponse = none
  pending : entries.pendingBodyQueue = []
  channel : entries.channel = none

inductive Delivering (source : BodySource) (bytes : Bytes) (entries : StreamEntries)
    (chunkables : List ChunkableBody) : Prop
  | queued (queued : Queued source bytes entries chunkables)
  | sending (sending : Sending bytes entries chunkables)
  | failing (failing : Failing bytes entries)
  | stopped (stopped : Stopped bytes entries)

/-! ## The chunking worker -/

section Steps
variable {source : BodySource} {bytes : Bytes} {entries entries' : StreamEntries}
  {chunkables : List ChunkableBody} {chunkable : ChunkableBody} {rest : List ChunkableBody} {answers : Answers}

theorem pushLow_self {channel : Channel} {item : QueuedRequest}
    (h : entries.channel = some channel) :
    entries.pushLow channel.sender item =
      { entries with channel := some { channel with low := channel.low ++ [item] } } := by
  simp [StreamEntries.pushLow, h]

theorem read_isEnd (h : chunkable.reader.length + chunkable.bytesWritten = chunkable.bodyLen) :
    (chunkable.reader.take chunkSize).length + chunkable.bytesWritten = chunkable.bodyLen ↔
      chunkable.reader.drop chunkSize = [] := by
  rw [List.length_take, List.drop_eq_nil_iff]
  omega

/-- The worker puts a body back with what it has not read. -/
theorem read_rest (h : chunkable.reader.length + chunkable.bytesWritten = chunkable.bodyLen) :
    (chunkable.read.2 = none ∧ chunkable.reader.drop chunkSize = []) ∨
      ∃ rest, chunkable.read.2 = some rest ∧ rest.reader = chunkable.reader.drop chunkSize ∧
        rest.reader ≠ [] ∧ rest.sender = chunkable.sender ∧
        rest.reader.length + rest.bytesWritten = rest.bodyLen := by
  have hend := read_isEnd h
  unfold ChunkableBody.read
  simp only [beq_iff_eq, hend]
  split
  · exact .inl ⟨rfl, ‹_›⟩
  · refine .inr ⟨_, rfl, rfl, ‹_›, rfl, ?_⟩
    simp only [List.length_drop, List.length_take]
    omega

theorem packetOf_read (chunkable : ChunkableBody) :
    packetOf chunkable.read.1 = chunkable.reader.take chunkSize := rfl

/-- One chunk moves from the reader to the queue. -/
theorem sending_chunked (h : Sending bytes entries (chunkable :: rest)) :
    Sending bytes (entries.pushLow chunkable.sender chunkable.read.1)
      (rest ++ chunkable.read.2.toList) := by
  rcases h.cutting with hnil | ⟨c, channel, hc, hch, hsender, hne, hlen⟩
  · cases hnil
  obtain ⟨rfl, rfl⟩ := List.cons.inj hc
  obtain ⟨hhigh, hlow⟩ := h.channel channel hch
  have hconserved := h.conserved
  have hpacket : chunkable.reader.take chunkSize ≠ [] := by
    simp [List.take_eq_nil_iff, hne, chunkSize]
  have hreaders : packetOf chunkable.read.1 ++ readers chunkable.read.2.toList =
      chunkable.reader := by
    rcases read_rest hlen with ⟨hnone, hdrop⟩ | ⟨c, hsome, hreader, -⟩
    · have htake : chunkable.reader.take chunkSize = chunkable.reader := by
        have := List.take_append_drop chunkSize chunkable.reader
        rwa [hdrop, List.append_nil] at this
      simp [packetOf_read, hnone, readers, htake]
    · simp [packetOf_read, hsome, readers, hreader]
  rw [← hsender, pushLow_self hch]
  refine ⟨h.headersSend, h.tracker, h.live, h.pending, h.resp, ?_, ?_, ?_⟩
  · intro channel' hch'
    obtain rfl := Option.some.inj hch'
    refine ⟨hhigh, fun item hitem => ?_⟩
    rcases List.mem_append.mp hitem with hitem | hitem
    · exact hlow item hitem
    · exact ⟨_, List.mem_singleton.mp hitem, hpacket⟩
  · rcases read_rest hlen with ⟨hnone, -⟩ | ⟨c, hsome, -, hne', hsender', hlen'⟩
    · exact .inl (by simp [hnone])
    · exact .inr ⟨c, _, by simp [hsome], rfl, hsender.trans hsender'.symm, hne', hlen'⟩
  · rw [← hconserved]
    simp only [queuedBytes, hch, List.flatMap_append, List.flatMap_singleton, List.append_assoc,
      List.nil_append, hreaders]
    simp [readers]

theorem failing_pushLow (h : Failing bytes entries) (sender : ChunkSender) (body : BodyRequest) :
    Failing bytes (entries.pushLow sender (.body body)) := by
  refine ⟨h.headersSend, h.accepted, h.tracker, h.failed, h.pending, fun channel hch => ?_⟩
  cases hc : entries.channel with
  | none => simp [StreamEntries.pushLow, hc] at hch
  | some channel' =>
    obtain ⟨hhigh, hlow⟩ := h.channel channel' hc
    simp only [StreamEntries.pushLow, hc, Option.map_some, Option.some.injEq] at hch
    subst hch
    split
    · refine ⟨hhigh, fun item hitem => ?_⟩
      rcases List.mem_append.mp hitem with hitem | hitem
      · exact hlow item hitem
      · exact ⟨body, List.mem_singleton.mp hitem⟩
    · exact ⟨hhigh, hlow⟩

/-! ## The partial response -/

theorem length_rest {resp : PartialResponse} (h : resp.written < resp.body.length) :
    resp.written + resp.rest.length = resp.body.length := by
  simp only [PartialResponse.rest, List.length_drop]
  omega

theorem restOf_after {resp : PartialResponse} {n : Nat} (h : resp.written < resp.body.length) :
    restOf (resp.after n) = resp.rest.drop n := by
  have hlen := length_rest h
  unfold PartialResponse.after
  split
  · have : n = resp.rest.length := by omega
    simp [restOf, this]
  · simp [restOf, PartialResponse.rest, List.drop_drop]

/-- A prefix as long as the whole is the whole. -/
theorem eq_of_append_eq {done more all : Bytes} (h : done ++ more = all)
    (hlen : all.length ≤ done.length) : done = all ∧ more = [] := by
  have hmore : more.length = 0 := by
    have := congrArg List.length h
    simp only [List.length_append] at this
    omega
  obtain rfl := List.length_eq_zero_iff.mp hmore
  exact ⟨by simpa using h, rfl⟩

/-- More of a partial response was taken. -/
theorem sending_taken {resp : PartialResponse} {n : Nat} (h : Sending bytes entries chunkables)
    (hp : entries.partialResponse = some resp) (hn : n ≤ resp.rest.length) {wire : Wire}
    (haccepted : wire.accepted = entries.wire.accepted ++ resp.rest.take n)
    (hlive : wire.failed = false) :
    Sending bytes { entries.sent resp.rest n with wire, partialResponse := resp.after n }
      chunkables := by
  obtain ⟨hheaders, hlt⟩ := h.resp resp hp
  have hconserved := h.conserved
  rw [hp] at hconserved
  refine ⟨h.headersSend, ?_, hlive, h.pending, ?_, h.channel, h.cutting, ?_⟩
  · simp [StreamEntries.sent, h.tracker, haccepted, Nat.min_eq_left hn]
  · intro resp' hresp'
    simp only [PartialResponse.after] at hresp'
    split at hresp'
    · cases hresp'
    · rename_i hne
      obtain rfl := Option.some.inj hresp'
      have := length_rest hlt
      refine ⟨hheaders, ?_⟩
      show resp.written + n < resp.body.length
      omega
  · show wire.accepted ++ (restOf (resp.after n) ++ (queuedBytes entries ++ readers chunkables)) =
      bytes
    rw [haccepted, restOf_after hlt, ← hconserved]
    simp only [restOf, List.append_assoc]
    rw [← List.append_assoc (resp.rest.take n), List.take_append_drop]

/-- What a step may do to the end of the stream: accept it with the whole body, and
not miss it there. -/
def EndOrdered (bytes : Bytes) (entries entries' : StreamEntries) : Prop :=
  entries'.wire.fin = true → entries.wire.fin = true ∨ entries'.wire.accepted = bytes

def EndKept (bytes : Bytes) (entries entries' : StreamEntries) : Prop :=
  entries'.wire.accepted = bytes → entries'.wire.fin = true ∨
    (entries.wire.accepted = bytes ∧ entries'.wire.fin = entries.wire.fin)

/-- `handle_writable` is answered with a failure at the last byte. -/
def EndRejected (entries : StreamEntries) (resp : PartialResponse) (answers : Answers) : Prop :=
  ∃ n, entries.wire.taken resp.rest answers.body = some n ∧ EndDue entries resp n ∧
    resp.written + n = resp.body.length ∧ entries.wire.taken [] answers.fin = none

/-- `handle_writable` has the end accepted in the middle of a chunk. -/
def EndEarly (entries : StreamEntries) (resp : PartialResponse) (answers : Answers) : Prop :=
  ∃ n, entries.wire.taken resp.rest answers.body = some n ∧ EndDue entries resp n ∧
    resp.written + n ≠ resp.body.length ∧ entries.wire.endTaken answers.fin = true

/-- `handle_writable` does not have the end accepted at the last byte. -/
def EndMissed (entries : StreamEntries) (resp : PartialResponse) (answers : Answers) : Prop :=
  ∃ n, entries.wire.taken resp.rest answers.body = some n ∧ EndDue entries resp n ∧
    resp.written + n = resp.body.length ∧ entries.wire.endTaken answers.fin = false

/-- A call that fails keeps what was accepted before. -/
theorem failing_of_sending {wire : Wire} {partialResponse : Option PartialResponse}
    (h : Sending bytes entries chunkables) (haccepted : wire.accepted = entries.wire.accepted)
    (hfailed : wire.failed = true) :
    Failing bytes { entries with wire, partialResponse } := by
  refine ⟨h.headersSend, ?_, ?_, hfailed, ?_, ?_⟩
  · show wire.accepted <+: bytes
    rw [haccepted]
    exact ⟨_, h.conserved⟩
  · show entries.bodySendingTracker = some (wire.accepted.length, bytes.length)
    rw [haccepted]
    exact h.tracker
  · intro item hitem
    rw [show entries.pendingBodyQueue = [] from h.pending] at hitem
    cases hitem
  · intro channel hch
    obtain ⟨hhigh, hlow⟩ := h.channel channel hch
    refine ⟨hhigh, fun item hitem => ?_⟩
    obtain ⟨body, rfl, -⟩ := hlow item hitem
    exact ⟨body, rfl⟩

/-- A round on a partial response, unless the end is rejected with the last byte. -/
theorem sending_drained {resp : PartialResponse} (h : Sending bytes entries chunkables)
    (hp : entries.partialResponse = some resp) (hd : Drained entries resp answers entries')
    (hreject : ¬ EndRejected entries resp answers) :
    (Sending bytes entries' chunkables ∨ Failing bytes entries') ∧
      (¬ EndEarly entries resp answers → EndOrdered bytes entries entries') ∧
      (¬ EndMissed entries resp answers → EndKept bytes entries entries') := by
  obtain ⟨hheaders, hlt⟩ := h.resp resp hp
  have hrest := length_rest hlt
  have hwritten : entries.getWritten = (entries.wire.accepted.length, bytes.length) := by
    simp [StreamEntries.getWritten, h.tracker]
  have hconserved := h.conserved
  rw [hp] at hconserved
  -- the whole body is accepted with the last byte of the chunk only
  have hwhole : ∀ n, n ≤ resp.rest.length → entries.wire.accepted ++ resp.rest.take n = bytes →
      resp.written + n = resp.body.length ∧ EndDue entries resp n := by
    intro n hn hall
    have hlen := congrArg List.length hconserved
    have hlen' := congrArg List.length hall
    simp only [List.length_append, List.length_take, Nat.min_eq_left hn, restOf] at hlen hlen'
    have hn' : resp.written + n = resp.body.length := by omega
    refine ⟨hn', ?_⟩
    simp only [EndDue, hn', if_true, hwritten]
    omega
  cases hd with
  | failed htaken =>
    have hfailing : Failing bytes { entries with
        wire := entries.wire.fail, partialResponse := none } := failing_of_sending h rfl rfl
    exact ⟨.inr hfailing, fun _ hfin => .inl hfin, fun _ hall => .inr ⟨hall, rfl⟩⟩
  | wrote htaken hdue =>
    have hn := taken_le htaken
    refine ⟨.inl (sending_taken h hp hn rfl h.live), fun _ hfin => .inl hfin, fun _ hall => ?_⟩
    exact absurd (hwhole _ hn hall).2 hdue
  | @ended n htaken hdue =>
    have hn := taken_le htaken
    let wire := (entries.wire.put (resp.rest.take n)).putEnd (entries.wire.endTaken answers.fin)
    have hsending : Sending bytes { entries.sent resp.rest n with
        wire, partialResponse := resp.after n } chunkables := sending_taken h hp hn rfl h.live
    refine ⟨.inl hsending, fun hearly hfin => ?_, fun hmissed hall => .inl ?_⟩
    · by_cases hlast : resp.written + n = resp.body.length
      · right
        simp only [EndDue, hlast, if_true, hwritten] at hdue
        refine (eq_of_append_eq hsending.conserved ?_).1
        show bytes.length ≤ (entries.wire.accepted ++ resp.rest.take n).length
        simp only [List.length_append, List.length_take, Nat.min_eq_left hn]
        omega
      · left
        have hnot : entries.wire.endTaken answers.fin = false := by
          by_contra htrue
          exact hearly ⟨n, htaken, hdue, hlast, by simpa using htrue⟩
        simpa [Wire.putEnd, Wire.put, hnot] using hfin
    · obtain ⟨hlast, -⟩ := hwhole n hn hall
      have htrue : entries.wire.endTaken answers.fin = true := by
        by_contra hfalse
        exact hmissed ⟨n, htaken, hdue, hlast, by simpa using hfalse⟩
      simp [Wire.putEnd, htrue]
  | @endFailed n htaken hdue hrejected partialResponse =>
    have hlast : resp.written + n ≠ resp.body.length := fun hlast =>
      hreject ⟨n, htaken, hdue, hlast, hrejected⟩
    obtain ⟨rfl, -⟩ : n = 0 ∧ _ := by simpa only [EndDue, hlast, if_false] using hdue
    have hsame : (entries.wire.put (resp.rest.take 0)).fail.accepted = entries.wire.accepted := by
      simp [Wire.put, Wire.fail]
    refine ⟨.inr (failing_of_sending h hsame rfl), fun _ hfin => .inl hfin, fun _ hall => ?_⟩
    exact .inr ⟨hsame ▸ hall, rfl⟩

/-! ## The queue -/

theorem nextItem_of_empty (hpending : entries.pendingBodyQueue = []) :
    nextItem entries = do
      let channel ← entries.channel
      let (item, channel) ← channel.tryPop
      return (item, { entries with channel := some channel }) := by
  simp [nextItem, openingRetry, isStreamQueueEmpty, hpending]

/-- While a response is sent the next item is a chunk of its body. -/
theorem sending_nextItem (h : Sending bytes entries chunkables) :
    nextItem entries = none ∨ ∃ channel content low, entries.channel = some channel ∧
      channel.low = .body content :: low ∧ content.packet ≠ [] ∧
      nextItem entries =
        some (.body content, { entries with channel := some { channel with low } }) := by
  rw [nextItem_of_empty h.pending]
  cases hch : entries.channel with
  | none => exact .inl rfl
  | some channel =>
    obtain ⟨hhigh, hlow⟩ := h.channel channel hch
    cases hl : channel.low with
    | nil => exact .inl (by simp [Channel.tryPop, hhigh, hl])
    | cons item low =>
      obtain ⟨content, rfl, hne⟩ := hlow item (by simp [hl])
      exact .inr ⟨channel, content, low, rfl, hl, hne, by simp [Channel.tryPop, hhigh, hl]⟩

/-- Serving a chunk has the end missed if it is the last one, all of it is taken,
and the end is not. -/
def ChunkEndMissed (entries : StreamEntries) (content : BodyRequest) (total : Nat)
    (answers : Answers) : Prop :=
  ∃ n, entries.wire.taken content.packet answers.body = some n ∧
    entries.getWritten.1 + n = total ∧ entries.wire.endTaken answers.fin = false

theorem restOf_leftOver {popped : StreamEntries} {data : Bytes} {n : Nat}
    (hp : popped.partialResponse = none) (hn : n ≤ data.length) :
    restOf (leftOver popped data n) = data.drop n := by
  unfold leftOver
  split
  · rfl
  · have : n = data.length := by omega
    simp [restOf, hp, this]

section Served
variable {channel : Channel} {content : BodyRequest} {low : List QueuedRequest} {n : Nat}

/-- What is taken of a chunk and the rest of it make up the body with what is behind it. -/
theorem served_moved (h : Sending bytes entries chunkables) (hp : entries.partialResponse = none)
    (hch : entries.channel = some channel) (hlow : channel.low = .body content :: low) (n : Nat) :
    (entries.wire.accepted ++ content.packet.take n) ++
      (content.packet.drop n ++ (low.flatMap packetOf ++ readers chunkables)) = bytes := by
  have hconserved := h.conserved
  simp only [hp, restOf, queuedBytes, hch, hlow, List.flatMap_cons, packetOf,
    List.nil_append] at hconserved
  rw [← hconserved]
  simp only [List.append_assoc]
  rw [← List.append_assoc (content.packet.take n), List.take_append_drop]

/-- All is accepted exactly when the counts agree. -/
theorem served_all_iff (h : Sending bytes entries chunkables) (hp : entries.partialResponse = none)
    (hch : entries.channel = some channel) (hlow : channel.low = .body content :: low)
    (hn : n ≤ content.packet.length) :
    entries.wire.accepted ++ content.packet.take n = bytes ↔
      entries.wire.accepted.length + n = bytes.length := by
  constructor
  · intro heq
    simp [← heq, Nat.min_eq_left hn]
  · intro hlen
    refine (eq_of_append_eq (served_moved h hp hch hlow n) ?_).1
    simp [Nat.min_eq_left hn, hlen]

/-- The chunk that could not be sent goes to the front of the pending queue. -/
theorem failing_requeued (h : Sending bytes entries chunkables) (hch : entries.channel = some channel)
    (hlow : channel.low = .body content :: low) :
    Failing bytes (({ entries with channel := some { channel with low } }.failed).park
      (.body content) (.body content.takeData.2)) := by
  obtain ⟨hhigh, hbodies⟩ := h.channel channel hch
  refine ⟨h.headersSend, ⟨_, h.conserved⟩, h.tracker, rfl, ?_, ?_⟩
  · intro item hitem
    rcases List.mem_cons.mp hitem with rfl | hitem
    · exact ⟨_, rfl⟩
    · rw [show StreamEntries.pendingBodyQueue _ = [] from h.pending] at hitem
      cases hitem
  · intro channel' hch'
    obtain rfl := Option.some.inj hch'
    refine ⟨hhigh, fun item hitem => ?_⟩
    obtain ⟨body, rfl, -⟩ := hbodies item (by simp [hlow, hitem])
    exact ⟨body, rfl⟩

/-- A chunk that is not the last one is sent as far as it is taken. -/
theorem sending_wrote (h : Sending bytes entries chunkables) (hp : entries.partialResponse = none)
    (hch : entries.channel = some channel) (hlow : channel.low = .body content :: low)
    (hn : n ≤ content.packet.length) :
    Sending bytes { { entries with channel := some { channel with low } }.sent content.packet n with
      partialResponse := leftOver { entries with channel := some { channel with low } }
        content.packet n } chunkables := by
  obtain ⟨hhigh, hbodies⟩ := h.channel channel hch
  refine ⟨h.headersSend, ?_, h.live, h.pending, ?_, ?_, ?_, ?_⟩
  · simp [StreamEntries.sent, h.tracker, Wire.put, Nat.min_eq_left hn]
  · intro resp hresp
    simp only [leftOver, hp] at hresp
    split at hresp
    · obtain rfl := Option.some.inj hresp
      exact ⟨rfl, ‹_›⟩
    · cases hresp
  · intro channel' hch'
    obtain rfl := Option.some.inj hch'
    exact ⟨hhigh, fun item hitem => hbodies item (by simp [hlow, hitem])⟩
  · rcases h.cutting with hnil | ⟨c, ch, hc, hch', hsender, hrest⟩
    · exact .inl hnil
    · obtain rfl := Option.some.inj (hch.symm.trans hch')
      exact .inr ⟨c, _, hc, rfl, hsender, hrest⟩
  · have hleft : restOf (leftOver { entries with channel := some { channel with low } }
        content.packet n) = content.packet.drop n := restOf_leftOver hp hn
    have hmoved := served_moved h hp hch hlow n
    rw [← hleft] at hmoved
    exact hmoved

/-- Nothing is left behind the last chunk. -/
theorem nothing_behind (h : Sending bytes entries chunkables) (hp : entries.partialResponse = none)
    (hch : entries.channel = some channel) (hlow : channel.low = .body content :: low)
    (hwhole : entries.wire.accepted ++ content.packet.take n = bytes) :
    leftOver { entries with channel := some { channel with low } } content.packet n = none ∧
      chunkables = [] := by
  have hrest := (eq_of_append_eq (served_moved h hp hch hlow n) (by simp [hwhole])).2
  obtain ⟨hdrop, hrest⟩ := List.append_eq_nil_iff.mp hrest
  obtain ⟨-, hreaders⟩ := List.append_eq_nil_iff.mp hrest
  constructor
  · have : ¬ n < content.packet.length := Nat.not_lt.mpr (List.drop_eq_nil_iff.mp hdrop)
    simp [leftOver, this, hp]
  · rcases h.cutting with hnil | ⟨c, ch, rfl, -, -, hne, -⟩
    · exact hnil
    · simp [readers, hne] at hreaders

/-- The queues of the stream go with its last chunk. -/
theorem sending_ended {fin : Bool} (h : Sending bytes entries chunkables)
    (hp : entries.partialResponse = none) (hch : entries.channel = some channel)
    (hlow : channel.low = .body content :: low) (hn : n ≤ content.packet.length)
    (hsum : entries.wire.accepted.length + n = bytes.length) :
    Sending bytes { { entries with channel := some { channel with low } }.sent content.packet n with
      wire := (entries.wire.put (content.packet.take n)).putEnd fin
      partialResponse := leftOver { entries with channel := some { channel with low } }
        content.packet n
      pendingBodyQueue := []
      channel := none } chunkables := by
  have hwhole := (served_all_iff h hp hch hlow hn).mpr hsum
  obtain ⟨hnone, rfl⟩ := nothing_behind h hp hch hlow hwhole
  refine ⟨h.headersSend, ?_, h.live, rfl, ?_, nofun, .inl rfl, ?_⟩
  · show entries.bodySendingTracker.map _ =
      some ((entries.wire.accepted ++ content.packet.take n).length, bytes.length)
    rw [h.tracker, Option.map_some, hwhole, hsum]
  · intro resp hresp
    rw [show _ = none from hnone] at hresp
    cases hresp
  · show entries.wire.accepted ++ content.packet.take n ++ (restOf (leftOver _ content.packet n) ++
      ([] ++ readers [])) = bytes
    simp [hnone, restOf, readers, hwhole]

/-- They also go with it when the end is rejected. -/
theorem failing_ended (h : Sending bytes entries chunkables)
    (hwhole : entries.wire.accepted ++ content.packet.take n = bytes)
    (hsum : entries.wire.accepted.length + n = bytes.length) :
    Failing bytes { { entries with channel := some { channel with low } }.sent content.packet n with
      wire := (entries.wire.put (content.packet.take n)).fail
      partialResponse := leftOver { entries with channel := some { channel with low } }
        content.packet n
      pendingBodyQueue := []
      channel := none } := by
  refine ⟨h.headersSend, ⟨[], ?_⟩, ?_, rfl, nofun, nofun⟩
  · show entries.wire.accepted ++ content.packet.take n ++ [] = bytes
    rw [List.append_nil, hwhole]
  · show entries.bodySendingTracker.map _ =
      some ((entries.wire.accepted ++ content.packet.take n).length, bytes.length)
    rw [h.tracker, Option.map_some, hwhole, hsum]

theorem sending_served (h : Sending bytes entries chunkables) (hp : entries.partialResponse = none)
    (hch : entries.channel = some channel) (hlow : channel.low = .body content :: low)
    (hs : ServedBody { entries with channel := some { channel with low } } content
      entries.wire.accepted.length bytes.length answers entries') :
    (Sending bytes entries' chunkables ∨ Failing bytes entries') ∧
      EndOrdered bytes entries entries' ∧
      (¬ ChunkEndMissed entries content bytes.length answers → EndKept bytes entries entries') := by
  have hwritten : entries.getWritten.1 = entries.wire.accepted.length := by
    simp [StreamEntries.getWritten, h.tracker]
  cases hs with
  | failed htaken =>
    exact ⟨.inr (failing_requeued h hch hlow), fun hfin => .inl hfin, fun _ hall => .inr ⟨hall, rfl⟩⟩
  | wrote htaken hmore =>
    have hn := taken_le htaken
    refine ⟨.inl (sending_wrote h hp hch hlow hn), fun hfin => .inl hfin, fun _ hwhole => ?_⟩
    exact absurd ((served_all_iff h hp hch hlow hn).mp hwhole) hmore
  | @ended n htaken hsum =>
    have hn := taken_le htaken
    have hwhole := (served_all_iff h hp hch hlow hn).mpr hsum
    refine ⟨.inl (sending_ended h hp hch hlow hn hsum), fun _ => .inr hwhole, fun hmissed _ => .inl ?_⟩
    have htrue : entries.wire.endTaken answers.fin = true := by
      by_contra hfalse
      exact hmissed ⟨n, htaken, hwritten ▸ hsum, by simpa using hfalse⟩
    simp [Wire.putEnd, htrue]
  | @endFailed n htaken hsum hrejected =>
    have hwhole := (served_all_iff h hp hch hlow (taken_le htaken)).mpr hsum
    refine ⟨.inr (failing_ended h hwhole hsum), fun hfin => .inl hfin, fun hmissed => ?_⟩
    exact absurd ⟨n, htaken, hwritten ▸ hsum, endTaken_of_not_taken hrejected⟩ hmissed

end Served

/-! ## After a failure -/

theorem fail_of_failed {wire : Wire} (h : wire.failed = true) : wire.fail = wire := by
  cases wire
  cases h
  rfl

/-- Nothing was accepted, neither bytes nor the end of the stream. -/
def Still (entries entries' : StreamEntries) : Prop :=
  entries'.wire.accepted = entries.wire.accepted ∧ entries'.wire.fin = entries.wire.fin

theorem still_of_wire (h : entries'.wire = entries.wire) : Still entries entries' := by
  simp [Still, h]

theorem handleWritableBody_of_failed {resp : PartialResponse} {result : Option Bool}
    (hf : entries.wire.failed = true)
    (h : handleWritableBody entries resp answers = .ok (entries', result)) :
    entries' = { entries with partialResponse := none } := by
  have htaken : entries.wire.taken (resp.body.drop resp.written) answers.body = none :=
    taken_of_failed hf
  unfold handleWritableBody at h
  by_cases hlt : resp.body.length < resp.written
  · simp only [hlt, if_true] at h
    cases h
  · simp only [hlt, if_false, writtenOf_sendBody, htaken, sendBody_of_not_taken htaken,
      fail_of_failed hf] at h
    cases h
    rfl

theorem drain_of_failed {streamWritable : Except H3Error Bool} {http3Conn : Bool}
    (hf : entries.wire.failed = true)
    (h : drain http3Conn entries streamWritable answers = .ok entries') :
    ∃ partialResponse, entries' = { entries with partialResponse } := by
  unfold drain at h
  split at h
  case isFalse =>
    cases h
    exact ⟨_, rfl⟩
  split at h
  · cases h
  · cases h
    exact ⟨_, rfl⟩
  cases hp : entries.partialResponse with
  | none =>
    simp only [hp] at h
    cases h
    exact ⟨_, rfl⟩
  | some resp =>
    cases http3Conn with
    | false => simp [hp, handleWritable, withHttp3Conn] at h
    | true =>
      simp only [hp, handleWritable, withHttp3Conn, if_true] at h
      cases hheaders : resp.headers with
      | none =>
        simp only [hheaders] at h
        split at h
        · cases h
        · rename_i hbody
          cases h
          exact ⟨_, handleWritableBody_of_failed hf hbody⟩
      | some headers =>
        simp only [hheaders] at h
        cases hanswer : answers.headers with
        | error e =>
          simp only [hanswer] at h
          cases h
          exact ⟨_, rfl⟩
        | ok _ =>
          have hwire : entries.wire.sendHeaders false (.ok ()) = entries.wire := by
            simp [Wire.sendHeaders]
          simp only [hanswer, hwire] at h
          split at h
          · cases h
          · rename_i hbody
            cases h
            exact ⟨_, handleWritableBody_of_failed hf hbody⟩

theorem failing_drained {streamWritable : Except H3Error Bool} {http3Conn : Bool}
    (h : Failing bytes entries)
    (hd : drain http3Conn entries streamWritable answers = .ok entries') :
    Failing bytes entries' ∧ Still entries entries' := by
  obtain ⟨_, rfl⟩ := drain_of_failed h.failed hd
  exact ⟨⟨h.headersSend, h.accepted, h.tracker, h.failed, h.pending, h.channel⟩, rfl, rfl⟩

/-- After a failure the next item is a chunk of a body. -/
theorem failing_nextItem (h : Failing bytes entries) :
    nextItem entries = none ∨ ∃ content popped, nextItem entries = some (.body content, popped) ∧
      Failing bytes popped ∧ popped.wire = entries.wire := by
  cases hpending : entries.pendingBodyQueue with
  | cons item pending =>
    obtain ⟨body, rfl⟩ := h.pending item (by simp [hpending])
    left
    simp [nextItem, openingRetry, isStreamQueueEmpty, hpending, QueuedRequest.isOpening]
  | nil =>
    rw [nextItem_of_empty hpending]
    cases hch : entries.channel with
    | none => exact .inl rfl
    | some channel =>
      obtain ⟨hhigh, hlow⟩ := h.channel channel hch
      cases hl : channel.low with
      | nil => exact .inl (by simp [Channel.tryPop, hhigh, hl])
      | cons item low =>
        obtain ⟨content, rfl⟩ := hlow item (by simp [hl])
        refine .inr ⟨content, { entries with channel := some { channel with low } }, ?_, ?_, rfl⟩
        · simp [Channel.tryPop, hhigh, hl]
        · refine ⟨h.headersSend, h.accepted, h.tracker, h.failed, h.pending,
            fun channel' hch' => ?_⟩
          obtain rfl := Option.some.inj hch'
          exact ⟨hhigh, fun item hitem => hlow item (by simp [hl, hitem])⟩

/-- A chunk that is served after a failure is parked. -/
theorem failing_serveBody {http3Conn : Bool} {content : BodyRequest} (h : Failing bytes entries)
    (hs : serveBody http3Conn entries content answers = .ok entries') :
    Failing bytes entries' ∧ Still entries entries' := by
  cases http3Conn with
  | false => simp [serveBody, sendChunk, sendBodyResponse, sendData, withHttp3Conn, bind, Except.bind] at hs
  | true =>
    have htaken : entries.wire.taken content.packet answers.body = none := taken_of_failed h.failed
    simp only [serveBody, sendChunk, h.headersSend, if_true, BodyRequest.takeData, sendBodyResponse,
      sendData_of_not_taken htaken, bind_eq_ok] at hs
    obtain ⟨_, hsent, hs⟩ := hs
    cases hsent
    cases hs
    refine ⟨⟨h.headersSend, ?_, ?_, rfl, ?_, h.channel⟩, rfl, rfl⟩
    · exact h.accepted
    · exact h.tracker
    · intro item hitem
      rcases List.mem_cons.mp hitem with rfl | hitem
      · exact ⟨_, rfl⟩
      · exact h.pending item hitem

/-- After a failure nothing is accepted any more. -/
theorem failing_served {http3Conn : Bool} {streamId : StreamId} {chunkable : Option ChunkableBody}
    (h : Failing bytes entries)
    (hs : serve http3Conn streamId entries answers = .ok (entries', chunkable)) :
    Failing bytes entries' ∧ Still entries entries' := by
  unfold serve at hs
  split at hs
  · cases hs
    exact ⟨h, rfl, rfl⟩
  · rcases failing_nextItem h with hnone | ⟨content, popped, hsome, hpopped, hwire⟩
    · simp only [hnone] at hs
      cases hs
      exact ⟨h, rfl, rfl⟩
    · simp only [hsome, bind_eq_ok, pure_eq_ok, Prod.mk.injEq] at hs
      obtain ⟨_, hbody, rfl, -⟩ := hs
      obtain ⟨hfailing, haccepted, hfin⟩ := failing_serveBody hpopped hbody
      exact ⟨hfailing, haccepted.trans (by rw [hwire]), hfin.trans (by rw [hwire])⟩

theorem accepted_of_delivering (h : Delivering source bytes entries chunkables) :
    entries.wire.accepted <+: bytes ∧
      entries.getWritten.1 = entries.wire.accepted.length := by
  cases h with
  | queued h => simp [h.wire, StreamEntries.getWritten, h.tracker]
  | sending h => exact ⟨⟨_, h.conserved⟩, by simp [StreamEntries.getWritten, h.tracker]⟩
  | failing h => exact ⟨h.accepted, by simp [StreamEntries.getWritten, h.tracker]⟩
  | stopped h => exact ⟨h.accepted, h.written⟩

/-- A stream is shut down in every phase. -/
theorem stopped_of_delivering (h : Delivering source bytes entries chunkables) :
    Stopped bytes entries.resetFailedStream :=
  ⟨(accepted_of_delivering h).1, (accepted_of_delivering h).2, rfl, rfl, rfl⟩

theorem stopped_drained {streamWritable : Except H3Error Bool} {http3Conn : Bool}
    (h : Stopped bytes entries)
    (hd : drain http3Conn entries streamWritable answers = .ok entries') : entries' = entries := by
  unfold drain at hd
  simp only [h.partialResponse] at hd
  split at hd
  · split at hd <;> cases hd <;> rfl
  · cases hd
    rfl

theorem stopped_served {http3Conn : Bool} {streamId : StreamId} {chunkable : Option ChunkableBody}
    (h : Stopped bytes entries)
    (hs : serve http3Conn streamId entries answers = .ok (entries', chunkable)) :
    entries' = entries := by
  have hnone : nextItem entries = none := by
    rw [nextItem_of_empty h.pending, h.channel]
    rfl
  simp only [serve, h.partialResponse, hnone, Option.isSome_none, Bool.false_eq_true,
    if_false] at hs
  cases hs
  rfl

/-! ## Before the header is sent -/

theorem queued_drained {streamWritable : Except H3Error Bool} {http3Conn : Bool}
    (h : Queued source bytes entries chunkables)
    (hd : drain http3Conn entries streamWritable answers = .ok entries') : entries' = entries := by
  have hresp : ∀ resp, entries.partialResponse = some resp →
      resp.headers = none ∧ resp.written < resp.body.length := fun resp hresp => by
    rw [h.partialResponse] at hresp
    cases hresp
  rcases drain_cases hresp hd with rfl | ⟨resp, -, hsome, -⟩
  · rfl
  · rw [h.partialResponse] at hsome
    cases hsome

theorem sendHeaders_more (wire : Wire) (answer : Except H3Error Unit) :
    wire.sendHeaders false answer = wire := by
  cases answer with
  | ok _ => simp [Wire.sendHeaders]
  | error e => rfl

/-- An intermediate header is sent or parked. -/
theorem interim_served {http3Conn : Bool} {streamId : StreamId} {header : HeaderRequest}
    {chunkable : Option ChunkableBody} (hmode : header.priorityMode = .sendHeader100)
    (hmore : header.isEnd = false)
    (hs : serveHeader http3Conn streamId entries header answers = .ok (entries', chunkable)) :
    chunkable = none ∧
      (entries' = entries ∨ entries' = entries.park (.header header) (.header header)) := by
  simp only [serveHeader, hmode, hmore, sendHeaders_more, bind_eq_ok] at hs
  obtain ⟨bodyLen, -, answer, -, hs⟩ := hs
  cases answer with
  | ok _ =>
    cases hs
    exact ⟨rfl, .inl rfl⟩
  | error e =>
    cases hs
    exact ⟨rfl, .inr rfl⟩

theorem bytesLen_body {file : FileAnswers} {sender : ChunkSender} (hreads : source.Reads bytes file) :
    (source.body bytes sender).bytesLen file = .ok bytes.length := by
  cases source with
  | data => rfl
  | filePath path =>
    obtain ⟨hlen, -⟩ := hreads
    simp [BodySource.body, BodyType.bytesLen, hlen]

theorem sendResponse_body {file : FileAnswers} {sender : ChunkSender} (streamId : StreamId)
    (hreads : source.Reads bytes file) :
    sendResponse streamId file (source.body bytes sender) = .ok (some (.newData sender streamId bytes)) := by
  cases source with
  | data => rfl
  | filePath path =>
    obtain ⟨-, hcontent⟩ := hreads
    simp [BodySource.body, sendResponse, hcontent]

/-- The final header is parked, or its body enters the chunking station. -/
theorem final_served {http3Conn : Bool} {streamId : StreamId} {header : HeaderRequest}
    {sender : ChunkSender} {chunkable : Option ChunkableBody}
    (hfinal : Final source bytes sender (.header header)) (hne : bytes ≠ [])
    (hreads : source.Reads bytes answers.file)
    (hs : serveHeader http3Conn streamId entries header answers = .ok (entries', chunkable)) :
    (entries' = entries.park (.header header) (.header header) ∧ chunkable = none) ∨
      (entries' = { entries with
          headersSendingTracker := some true
          bodySendingTracker := some (0, bytes.length) } ∧
        chunkable = some (.newData sender streamId bytes)) := by
  obtain ⟨_, hheader, hmode, hmore, hbody⟩ := hfinal
  cases hheader
  have hpos : 0 < bytes.length := List.length_pos_iff.mpr hne
  have hlen : header.attachedBodyLen answers.file = .ok (some bytes.length) := by
    simp [HeaderRequest.attachedBodyLen, hbody, bytesLen_body hreads]
  have hend : responseEndsOnHeaders false (some bytes.length) = false := by
    simp [responseEndsOnHeaders, hne]
  have hstart : ∀ e : StreamEntries, startBody streamId e header (some bytes.length) answers.file =
      .ok (e.setBodySizeToBodySendingTracker bytes.length, some (.newData sender streamId bytes)) := by
    intro e
    have hsome : nonEmptyAttachedBody (some bytes.length) = some bytes.length := by
      simp [nonEmptyAttachedBody, Option.filter, hpos]
    simp [startBody, hsome, hbody, sendResponse_body streamId hreads, bind, Except.bind, pure, Except.pure]
  simp only [serveHeader, hlen, hmore, bind_eq_ok] at hs
  obtain ⟨bodyLen, hbodyLen, hs⟩ := hs
  cases hbodyLen
  simp only [hend, sendHeaders_more] at hs
  rcases hmode with hmode | hmode <;> simp only [hmode, hstart, bind_eq_ok] at hs <;>
    obtain ⟨answer, -, hs⟩ := hs
  all_goals
    cases answer with
    | ok _ =>
      cases hs
      exact .inr ⟨rfl, rfl⟩
    | error e =>
      cases hs
      exact .inl ⟨rfl, rfl⟩

theorem sending_of_queued (hunfinished : entries.partialResponse = none)
    (hpending : entries.pendingBodyQueue = []) (hwire : entries.wire = {}) (hne : bytes ≠ [])
    {channel : Channel} (hch : entries.channel = some channel) (hhigh : channel.high = [])
    (hlow : channel.low = []) (streamId : StreamId) :
    Sending bytes { entries with
        headersSendingTracker := some true
        bodySendingTracker := some (0, bytes.length) }
      [.newData channel.sender streamId bytes] := by
  refine ⟨rfl, ?_, ?_, hpending, ?_, ?_, ?_, ?_⟩
  · simp [hwire]
  · simp [hwire]
  · intro resp hresp
    rw [show _ = none from hunfinished] at hresp
    cases hresp
  · intro channel' hch'
    obtain rfl := Option.some.inj (hch.symm.trans hch')
    refine ⟨hhigh, fun item hitem => ?_⟩
    rw [hlow] at hitem
    cases hitem
  · exact .inr ⟨_, channel, rfl, hch, rfl, hne, rfl⟩
  · simp [hwire, hunfinished, restOf, queuedBytes, hch, hlow, readers, ChunkableBody.newData]

theorem queued_served {http3Conn : Bool} {streamId : StreamId} {chunkable : Option ChunkableBody}
    (h : Queued source bytes entries chunkables) (hne : bytes ≠ [])
    (hreads : ∀ header popped, nextItem entries = some (.header header, popped) →
      source.Reads bytes answers.file)
    (hs : serve http3Conn streamId entries answers = .ok (entries', chunkable)) :
    (Queued source bytes entries' (chunkables ++ chunkable.toList) ∨
      Sending bytes entries' (chunkables ++ chunkable.toList)) ∧ entries'.wire = entries.wire := by
  obtain ⟨channel, hch, hlow, hheader⟩ := h.header
  obtain rfl := h.chunkables
  -- parked or intermediate, the front of the pending queue blocks the stream
  have hblocked : nextItem entries = none →
      (Queued source bytes entries' ([] ++ chunkable.toList) ∨
        Sending bytes entries' ([] ++ chunkable.toList)) ∧ entries'.wire = entries.wire := by
    intro hnone
    simp only [serve, h.partialResponse, hnone, Option.isSome_none, Bool.false_eq_true,
      if_false] at hs
    cases hs
    exact ⟨.inl h, rfl⟩
  have hfront : ∀ header pending, entries.pendingBodyQueue = .header header :: pending →
      header.priorityMode ≠ .openStream → nextItem entries = none := by
    intro header pending hpending hmode
    simp [nextItem, openingRetry, isStreamQueueEmpty, hpending, QueuedRequest.isOpening, hmode]
  rcases hheader with ⟨interim, final, hhigh, hinterim, hfinal⟩ | ⟨hhigh, final, hpending, hfinal⟩
  case inr =>
    obtain ⟨header, rfl, hmode, -⟩ := hfinal
    exact hblocked (hfront header [] hpending (by rcases hmode with hm | hm <;> simp [hm]))
  cases hpending : entries.pendingBodyQueue with
  | cons item pending =>
    obtain ⟨header, rfl, hmode, -⟩ := hinterim item (by simp [hpending])
    exact hblocked (hfront header pending hpending (by simp [hmode]))
  | nil =>
    have hnext := nextItem_of_empty hpending
    cases interim with
    | nil =>
      obtain ⟨header, rfl, -⟩ := id hfinal
      let popped : StreamEntries := { entries with channel := some { channel with high := [] } }
      have hsome : nextItem entries = some (.header header, popped) := by
        simp [hnext, hch, Channel.tryPop, hhigh, popped]
      simp only [serve, h.partialResponse, hsome, Option.isSome_none, Bool.false_eq_true,
        if_false] at hs
      rcases final_served hfinal hne (hreads header popped hsome) hs with ⟨rfl, rfl⟩ | ⟨rfl, rfl⟩
      · refine ⟨.inl ⟨h.partialResponse, h.tracker, h.wire, rfl, _, rfl, hlow, .inr ?_⟩, rfl⟩
        exact ⟨rfl, .header header, by simp [StreamEntries.park, popped, hpending], hfinal⟩
      · have hpopped : popped.partialResponse = none := h.partialResponse
        exact ⟨.inr (sending_of_queued hpopped hpending h.wire hne rfl rfl hlow streamId), rfl⟩
    | cons item interim =>
      obtain ⟨header, rfl, hmode, hmore⟩ := hinterim item (by simp)
      let popped : StreamEntries :=
        { entries with channel := some { channel with high := interim ++ [final] } }
      have hsome : nextItem entries = some (.header header, popped) := by
        simp [hnext, hch, Channel.tryPop, hhigh, popped]
      simp only [serve, h.partialResponse, hsome, Option.isSome_none, Bool.false_eq_true,
        if_false] at hs
      obtain ⟨rfl, rfl | rfl⟩ := interim_served hmode hmore hs
      · refine ⟨.inl ⟨h.partialResponse, h.tracker, h.wire, rfl, _, rfl, hlow, .inl ?_⟩, rfl⟩
        exact ⟨interim, final, rfl, fun i hi => hinterim i (by simp_all [popped]), hfinal⟩
      · refine ⟨.inl ⟨h.partialResponse, h.tracker, h.wire, rfl, _, rfl, hlow, .inl ?_⟩, rfl⟩
        refine ⟨interim, final, rfl, fun i hi => hinterim i ?_, hfinal⟩
        simp only [StreamEntries.park, popped, hpending, List.mem_append, List.mem_singleton] at hi
        simp only [List.cons_append, List.mem_cons, List.mem_append]
        tauto

end Steps
end FacesHttp3.SendLoop
