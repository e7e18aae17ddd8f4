import FacesHttp3.SendLoop.PanicFree

/-! # Opening a downstream

A downstream's response worker queues the final header before it calls the
callback, and capsules are published from then on. Both go through the stream's
queues, the header through the one that is looked at first. The look is two
receives, so this machine splits it: between them the opening and a capsule may
be queued. -/

namespace FacesHttp3.SendLoop
open FacesHttp3.Lib FacesHttp3.Lib.Exec FacesHttp3.Lib.Outcome FacesHttp3.Request

/-- The interim header of `send_reception_status_first`. -/
def receptionStatus (streamId : StreamId) : HeaderRequest where
  headers := [⟨ascii ":status", ascii "100"⟩, ⟨ascii "x-for", ascii (toString streamId)⟩,
    ⟨ascii "x-progress", ascii "0"⟩]
  isEnd := false
  priorityMode := .sendHeader100
  attachedBody := none

/-- The header that `open_stream_then_call` queues. -/
def opening : HeaderRequest where
  headers := [⟨ascii ":status", ascii "200"⟩]
  isEnd := false
  priorityMode := .openStream
  attachedBody := none

/-- What the second loop does with an item it popped. -/
def serveItem (http3Conn : Bool) (streamId : StreamId) (item : QueuedRequest)
    (entries : StreamEntries) (answers : Answers) :
    Except Panic (StreamEntries × Option ChunkableBody) :=
  match item with
  | .body content => do
    return (← serveBody http3Conn entries content answers, none)
  | .streamData content => do
    return (← serveProgression http3Conn entries .streamData content answers, none)
  | .bodyProgression content => do
    return (← serveProgression http3Conn entries .bodyProgression content answers, none)
  | .header content => serveHeader http3Conn streamId entries content answers

theorem serve_eq (http3Conn : Bool) (streamId : StreamId) (entries : StreamEntries)
    (answers : Answers) : serve http3Conn streamId entries answers =
      if entries.partialResponse.isSome then .ok (entries, none)
      else match nextItem entries with
      | none => .ok (entries, none)
      | some (item, entries) => serveItem http3Conn streamId item entries answers := by
  unfold serve serveItem
  split
  · rfl
  · cases nextItem entries with
    | none => rfl
    | some popped =>
      obtain ⟨item, entries⟩ := popped
      cases item <;> rfl

/-! ## The machine -/

/-- Where the stream's middleware worker and then its response worker stand. -/
inductive WorkerPc
  | admitted
  | hasQueue
  | reported
  | responding
  | opened
  | calling
  | failing
  | done
  deriving DecidableEq

/-- What is handed to the transport: a header, and whether it was accepted, or
data. -/
inductive Handed
  | header (request : HeaderRequest) (accepted : Bool)
  | data
  deriving DecidableEq

/-- The connection, and one downstream of it. `looking` is the network thread
between the two receives; `opened`, `called`, `handed` and `resetAt`, the number
of things handed when the requested reset was processed, are history. -/
structure Downstream where
  loop : State := {}
  worker : WorkerPc := .admitted
  looking : Bool := false
  opened : Bool := false
  called : Bool := false
  handed : List Handed := []
  resetAt : Option Nat := none

/-- The stream's workers and publishers, the network thread on its low priority
queue, and the steps of `loop` that are left: those of the network thread and
everything that concerns other streams. -/
inductive DownstreamAction
  | insertNewChannel
  | sendReceptionStatus
  | openStream
  | callback
  | callbackReturns (ok : Bool)
  | requestStreamReset
  | publish (sender : ChunkSender) (body : BodyRequest)
  | look
  | serveLow (answers : Answers)
  | loop (action : Action)

/-- Steps of the network thread. -/
def Action.Network : Action → Bool
  | .http3Connected | .resetRequested _ | .drain _ _ _ | .serve _ _ => true
  | _ => false

/-- The network thread goes on to the second receive. -/
def StreamEntries.HighEmpty (entries : StreamEntries) : Bool :=
  entries.partialResponse.isNone && entries.pendingBodyQueue.isEmpty &&
    entries.channel.any fun channel => channel.high.isEmpty

/-- The item the network thread attempts. -/
def attempted (entries : StreamEntries) : Option QueuedRequest :=
  if entries.partialResponse.isSome then none else (nextItem entries).map Prod.fst

def Handed.ofItem (answers : Answers) : QueuedRequest → Handed
  | .header request => .header request answers.headers.isOk
  | .body _ | .streamData _ | .bodyProgression _ => .data

/-- What a step of the network thread hands to the transport for the stream. -/
def handing (streamId : StreamId) (s : State) : Action → Option Handed
  | .drain id (.ok true) _ =>
    if id = streamId ∧ (s.streams id).headersSend ∧ (s.streams id).partialResponse.isSome then
      some .data
    else none
  | .serve id answers =>
    if id = streamId then (attempted (s.streams id)).map (.ofItem answers) else none
  | _ => none

/-- Steps of `loop` that this stream's own workers make, or that are split. -/
def Split (streamId : StreamId) (s : State) : Action → Bool
  | .insertNewChannel id | .sendToHighPriorityQueue id _ | .send id _ _ | .requestStreamReset id =>
    id = streamId
  | .serve id _ => id = streamId && (s.streams streamId).HighEmpty
  | _ => false

namespace Downstream

/-- A step of the stream's workers. -/
def work (s : Downstream) (action : Action) (worker : WorkerPc) : Option Downstream :=
  (step s.loop action).map fun loop => { s with loop, worker }

/-- A reset that was asked for is processed. -/
def markReset (streamId : StreamId) (s : Downstream) : Action → Option Nat
  | .resetRequested id =>
    if id = streamId ∧ (s.loop.streams streamId).isResetRequested then some s.handed.length
    else s.resetAt
  | _ => s.resetAt

end Downstream

def downstreamStep (streamId : StreamId) (s : Downstream) : DownstreamAction → Option Downstream
  | .insertNewChannel =>
    match s.worker with
    | .admitted => s.work (.insertNewChannel streamId) .hasQueue
    | .reported => s.work (.insertNewChannel streamId) .responding
    | _ => none
  | .sendReceptionStatus =>
    match s.worker with
    | .hasQueue =>
      s.work (.sendToHighPriorityQueue streamId (.header (receptionStatus streamId))) .reported
    | _ => none
  | .openStream =>
    match s.worker with
    | .responding =>
      match (s.loop.streams streamId).channel with
      | none => some { s with worker := .done }
      | some _ =>
        { s with opened := true }.work (.sendToHighPriorityQueue streamId (.header opening)) .opened
    | _ => none
  | .callback =>
    match s.worker with
    | .opened => some { s with called := true, worker := .calling }
    | _ => none
  | .callbackReturns ok =>
    match s.worker with
    | .calling => some { s with worker := if ok then .done else .failing }
    | _ => none
  | .requestStreamReset =>
    match s.worker with
    | .failing => s.work (.requestStreamReset streamId) .done
    | _ => none
  | .publish sender body => if s.called then s.work (.send streamId sender body) s.worker else none
  | .look =>
    guarded (s.loop.panicked = none ∧ s.looking = false ∧ (s.loop.streams streamId).HighEmpty = true)
      { s with looking := true }
  | .serveLow answers =>
    if s.looking then
      match (s.loop.streams streamId).channel with
      | some channel =>
        match channel.low with
        | item :: low => some { s with
            looking := false
            loop := s.loop.commit streamId (serveItem s.loop.http3Conn streamId item
              { s.loop.streams streamId with channel := some { channel with low } } answers)
            handed := s.handed ++ [.ofItem answers item] }
        | [] => some { s with looking := false }
      | none => some { s with looking := false }
    else none
  | .loop action =>
    if Split streamId s.loop action = false ∧ ¬ (s.looking = true ∧ action.Network = true) then
      (step s.loop action).map fun loop => { s with
        loop
        handed := s.handed ++ (handing streamId s.loop action).toList
        resetAt := s.markReset streamId action }
    else none

/-- What the second receive finds in the low priority queue it takes with the high
priority queue still empty. -/
def StillEmpty (streamId : StreamId) (s : Downstream) : DownstreamAction → Prop
  | .serveLow _ => ∀ channel, (s.loop.streams streamId).channel = some channel →
      channel.low = [] ∨ channel.high = []
  | _ => True

/-! ## What the network thread does with the stream's items -/

section Items
variable {http3Conn : Bool} {streamId : StreamId} {entries entries' : StreamEntries}
  {answers : Answers} {chunkable : Option ChunkableBody}

theorem nextItem_of_parked {item : QueuedRequest} {rest : List QueuedRequest}
    (hpending : entries.pendingBodyQueue = item :: rest) (hitem : item.isOpening = false) :
    nextItem entries = none := by
  simp [nextItem, openingRetry, isStreamQueueEmpty, hpending, hitem]

theorem nextItem_of_parkedOpening {item : QueuedRequest} {rest : List QueuedRequest}
    (hpending : entries.pendingBodyQueue = item :: rest) (hitem : item.isOpening = true) :
    nextItem entries = some (item, { entries with pendingBodyQueue := rest }) := by
  simp [nextItem, openingRetry, hpending, hitem]

theorem nextItem_of_high {channel : Channel} {item : QueuedRequest} {high : List QueuedRequest}
    (hpending : entries.pendingBodyQueue = []) (hchannel : entries.channel = some channel)
    (hhigh : channel.high = item :: high) :
    nextItem entries = some (item, { entries with channel := some { channel with high } }) := by
  simp [nextItem, openingRetry, isStreamQueueEmpty, hpending, hchannel, Channel.tryPop, hhigh]

theorem nextItem_of_noChannel (hpending : entries.pendingBodyQueue = [])
    (hchannel : entries.channel = none) : nextItem entries = none := by
  simp [nextItem, openingRetry, isStreamQueueEmpty, hpending, hchannel]

/-- An interim header is sent or parked. -/
theorem serveItem_interim (h : serveItem http3Conn streamId (.header (receptionStatus streamId))
    entries answers = .ok (entries', chunkable)) :
    chunkable = none ∧ entries'.partialResponse = entries.partialResponse ∧
      entries'.headersSend = entries.headersSend ∧ entries'.channel = entries.channel ∧
      (entries'.pendingBodyQueue = entries.pendingBodyQueue ∨
        entries'.pendingBodyQueue = .header (receptionStatus streamId) :: entries.pendingBodyQueue) := by
  simp only [serveItem, serveHeader, HeaderRequest.attachedBodyLen, receptionStatus, bind_eq_ok,
    Except.ok.injEq, exists_eq_left'] at h
  obtain ⟨answer, -, h⟩ := h
  cases answer with
  | ok _ =>
    cases h
    exact ⟨rfl, rfl, rfl, rfl, .inl rfl⟩
  | error e =>
    cases h
    exact ⟨rfl, rfl, rfl, rfl, .inr rfl⟩

/-- The opening is accepted, parked, or its stream reset. -/
theorem serveItem_opening (h : serveItem http3Conn streamId (.header opening) entries answers =
    .ok (entries', chunkable)) : chunkable = none ∧
      ((answers.headers.isOk = true ∧ entries'.channel = entries.channel ∧
          entries'.pendingBodyQueue = entries.pendingBodyQueue) ∨
        answers.headers.isOk = false ∧ (entries' = entries.park (.header opening) (.header opening) ∨
          entries' = entries.resetFailedStream)) := by
  simp only [serveItem, serveHeader, HeaderRequest.attachedBodyLen, opening, bind_eq_ok,
    Except.ok.injEq, exists_eq_left'] at h
  obtain ⟨answer, hanswer, h⟩ := h
  unfold withHttp3Conn at hanswer
  split at hanswer
  case isFalse => cases hanswer
  cases hanswer
  cases hheaders : answers.headers with
  | ok _ =>
    rw [hheaders] at h
    cases h
    exact ⟨rfl, .inl ⟨rfl, rfl, rfl⟩⟩
  | error e =>
    rw [hheaders] at h
    cases e <;> cases h
    · exact ⟨rfl, .inr ⟨rfl, .inl rfl⟩⟩
    · exact ⟨rfl, .inr ⟨rfl, .inl rfl⟩⟩
    · exact ⟨rfl, .inr ⟨rfl, .inl rfl⟩⟩
    · exact ⟨rfl, .inr ⟨rfl, .inr rfl⟩⟩

theorem sendData_queues {data : Bytes} {fin : Bool} {answer : Except H3Error Nat}
    {written : Option Nat} (h : sendData http3Conn entries data fin answer = .ok (entries', written)) :
    entries'.channel = entries.channel ∧ entries'.pendingBodyQueue = entries.pendingBodyQueue := by
  unfold sendData withHttp3Conn at h
  split at h
  case isFalse => cases h
  dsimp only at h
  split at h
  · cases h
    exact ⟨rfl, rfl⟩
  · split at h <;> cases h <;> exact ⟨rfl, rfl⟩

/-- A capsule is sent or parked. -/
theorem serveItem_capsule {content : BodyRequest} (h : serveItem http3Conn streamId
    (.streamData content) entries answers = .ok (entries', chunkable)) :
    chunkable = none ∧ entries'.channel = entries.channel ∧
      (entries'.pendingBodyQueue = entries.pendingBodyQueue ∨ ∃ parked,
        entries'.pendingBodyQueue = .streamData parked :: entries.pendingBodyQueue) := by
  simp only [serveItem, serveProgression, bind_eq_ok, pure_eq_ok, Prod.mk.injEq] at h
  obtain ⟨served, ⟨⟨sent, written⟩, hsent, hserved⟩, rfl, rfl⟩ := h
  obtain ⟨hchannel, hpending⟩ := sendData_queues hsent
  cases written with
  | none =>
    cases hserved
    exact ⟨rfl, hchannel, .inr ⟨_, congrArg _ hpending⟩⟩
  | some n =>
    cases hserved
    exact ⟨rfl, hchannel, .inl hpending⟩

theorem handleWritableBody_queues {resp : PartialResponse} {result : Option Bool}
    (h : handleWritableBody entries resp answers = .ok (entries', result)) :
    entries'.channel = entries.channel ∧ entries'.pendingBodyQueue = entries.pendingBodyQueue := by
  unfold handleWritableBody at h
  by_cases hlt : resp.body.length < resp.written
  · simp only [hlt, if_true] at h
    cases h
  simp only [hlt, if_false] at h
  split at h
  · cases h
    exact ⟨rfl, rfl⟩
  split at h
  · split at h <;> cases h <;> exact ⟨rfl, rfl⟩
  split at h
  · cases h
    exact ⟨rfl, rfl⟩
  · split at h <;> cases h <;> exact ⟨rfl, rfl⟩

theorem drain_queues {streamWritable : Except H3Error Bool}
    (h : drain http3Conn entries streamWritable answers = .ok entries') :
    entries'.channel = entries.channel ∧ entries'.pendingBodyQueue = entries.pendingBodyQueue := by
  unfold drain at h
  split at h
  case isFalse =>
    cases h
    exact ⟨rfl, rfl⟩
  split at h
  · cases h
  · cases h
    exact ⟨rfl, rfl⟩
  split at h
  case h_2 =>
    cases h
    exact ⟨rfl, rfl⟩
  split at h
  · cases h
  rename_i hwritable
  cases h
  unfold handleWritable at hwritable
  split at hwritable
  · cases hwritable
  · cases hwritable
    exact ⟨rfl, rfl⟩
  · split at hwritable
    · split at hwritable
      · cases hwritable
        exact ⟨rfl, rfl⟩
      · obtain ⟨hchannel, hpending⟩ := handleWritableBody_queues hwritable
        exact ⟨hchannel, hpending⟩
    · exact handleWritableBody_queues hwritable

theorem drain_of_not_headersSend {streamWritable : Except H3Error Bool}
    (hsend : entries.headersSend = false)
    (h : drain http3Conn entries streamWritable answers = .ok entries') : entries' = entries := by
  simp only [drain, hsend, Bool.false_eq_true, if_false, Except.ok.injEq] at h
  exact h.symm

end Items

/-! ## The stages of a downstream -/

/-- Interim headers, and attempts that were not accepted. -/
def Handed.Preliminary : Handed → Prop
  | .header request accepted => request.priorityMode = .sendHeader100 ∨ accepted = false
  | .data => False

/-- Data only follow the accepted opening, and nothing but data does. -/
def InOpeningOrder (handed : List Handed) : Prop :=
  (∀ h ∈ handed, h.Preliminary) ∨ ∃ before after, handed = before ++ .header opening true :: after ∧
    (∀ h ∈ before, h.Preliminary) ∧ ∀ h ∈ after, h = .data

def QueuedRequest.IsCapsule (item : QueuedRequest) : Prop := ∃ content, item = .streamData content

/-- All of them are interim headers of the stream. -/
def AllInterim (streamId : StreamId) (items : List QueuedRequest) : Prop :=
  ∀ i ∈ items, i = .header (receptionStatus streamId)

/-- The opening was queued, or never will be. -/
def WorkerPc.Past : WorkerPc → Prop
  | .opened | .calling | .failing | .done => True
  | _ => False

/-- The opening is in the stream's high priority queue or was parked. -/
def OpeningQueued (streamId : StreamId) (entries : StreamEntries) (channel : Channel) : Prop :=
  (∃ front, AllInterim streamId front ∧ channel.high = front ++ [.header opening] ∧
      AllInterim streamId entries.pendingBodyQueue) ∨
    (channel.high = [] ∧ entries.pendingBodyQueue = [.header opening])

/-- Before the opening is queued; until it is accepted; from then on; and after the
stream was reset. -/
inductive Stage (streamId : StreamId) (entries : StreamEntries) (worker : WorkerPc) :
    Bool → List Handed → Prop
  | unopened {handed : List Handed} (partialResponse : entries.partialResponse = none)
      (headersSend : entries.headersSend = false)
      (pending : AllInterim streamId entries.pendingBodyQueue)
      (queues : ∀ channel, entries.channel = some channel →
        AllInterim streamId channel.high ∧ channel.low = [] ∧ channel.reset = false)
      (preliminary : ∀ h ∈ handed, h.Preliminary) : Stage streamId entries worker false handed
  | waiting {handed : List Handed} {channel : Channel} (past : worker.Past)
      (partialResponse : entries.partialResponse = none)
      (headersSend : entries.headersSend = false) (channel_eq : entries.channel = some channel)
      (capsules : ∀ i ∈ channel.low, i.IsCapsule)
      (queued : OpeningQueued streamId entries channel)
      (preliminary : ∀ h ∈ handed, h.Preliminary) : Stage streamId entries worker true handed
  | accepted {before after : List Handed} {channel : Channel} (past : worker.Past)
      (channel_eq : entries.channel = some channel) (high : channel.high = [])
      (capsules : ∀ i ∈ channel.low, i.IsCapsule)
      (pending : ∀ i ∈ entries.pendingBodyQueue, i.IsCapsule)
      (preliminary : ∀ h ∈ before, h.Preliminary) (data : ∀ h ∈ after, h = .data) :
      Stage streamId entries worker true (before ++ .header opening true :: after)
  | gone {handed : List Handed} (past : worker.Past)
      (partialResponse : entries.partialResponse = none)
      (headersSend : entries.headersSend = false) (pending : entries.pendingBodyQueue = [])
      (channel : entries.channel = none) (ordered : InOpeningOrder handed) :
      Stage streamId entries worker true handed

section Stages
variable {http3Conn : Bool} {streamId : StreamId} {entries entries' : StreamEntries}
  {worker : WorkerPc} {opened : Bool} {handed : List Handed} {answers : Answers}
  {chunkable : Option ChunkableBody}

theorem Stage.ordered (h : Stage streamId entries worker opened handed) : InOpeningOrder handed := by
  cases h with
  | unopened _ _ _ _ preliminary | waiting _ _ _ _ _ _ preliminary => exact .inl preliminary
  | accepted _ _ _ _ _ preliminary data => exact .inr ⟨_, _, rfl, preliminary, data⟩
  | gone _ _ _ _ _ ordered => exact ordered

theorem Stage.past (h : Stage streamId entries worker true handed) : worker.Past := by
  cases h with
  | waiting past | accepted past | gone past => exact past

theorem Stage.reset (h : Stage streamId entries worker true handed) :
    Stage streamId entries.resetFailedStream worker true handed :=
  .gone h.past rfl rfl rfl rfl h.ordered

theorem preliminary_snoc {last : Handed} (hpre : ∀ h ∈ handed, h.Preliminary)
    (hlast : last.Preliminary) : ∀ h ∈ handed ++ [last], h.Preliminary := by
  intro h hh
  rcases List.mem_append.mp hh with hh | hh
  · exact hpre h hh
  · exact List.mem_singleton.mp hh ▸ hlast

/-- A reset that was asked for comes from a failed callback. -/
theorem Stage.opened_of_reset (h : Stage streamId entries worker opened handed)
    (hreset : entries.isResetRequested = true) : opened = true := by
  cases h with
  | unopened _ _ _ queues =>
    simp only [StreamEntries.isResetRequested, Option.any_eq_true] at hreset
    obtain ⟨channel, hchannel, hreset⟩ := hreset
    rw [(queues channel hchannel).2.2] at hreset
    cases hreset
  | waiting | accepted | gone => rfl

/-! ### Workers and publishers -/

theorem Stage.requestReset (h : Stage streamId entries worker true handed) :
    Stage streamId entries.requestReset worker true handed := by
  have hset : ∀ channel, entries.channel = some channel →
      entries.requestReset.channel = some { channel with reset := true } := by
    intro channel hchannel
    simp [StreamEntries.requestReset, hchannel]
  cases h with
  | waiting past partialResponse headersSend channel_eq capsules queued preliminary =>
    exact .waiting past partialResponse headersSend (hset _ channel_eq) capsules queued preliminary
  | accepted past channel_eq high capsules pending preliminary data =>
    exact .accepted past (hset _ channel_eq) high capsules pending preliminary data
  | gone past partialResponse headersSend pending channel ordered =>
    exact .gone past partialResponse headersSend pending
      (by simp [StreamEntries.requestReset, channel]) ordered

theorem Stage.publish (h : Stage streamId entries worker true handed) (sender : ChunkSender)
    (body : BodyRequest) :
    Stage streamId (entries.pushLow sender (.streamData body)) worker true handed := by
  have hpush : ∀ channel, entries.channel = some channel → ∃ pushed : Channel,
      (entries.pushLow sender (.streamData body)).channel = some pushed ∧
        pushed.high = channel.high ∧ ∀ i ∈ pushed.low, i ∈ channel.low ∨ i = .streamData body := by
    intro channel hchannel
    by_cases hs : channel.sender = sender
    · refine ⟨{ channel with low := channel.low ++ [.streamData body] }, ?_, rfl, ?_⟩
      · simp [StreamEntries.pushLow, hchannel, hs]
      · simp
    · exact ⟨channel, by simp [StreamEntries.pushLow, hchannel, hs], rfl, fun i hi => .inl hi⟩
  cases h with
  | waiting past partialResponse headersSend channel_eq capsules queued preliminary =>
    obtain ⟨pushed, hpushed, hhigh, hlow⟩ := hpush _ channel_eq
    refine .waiting past partialResponse headersSend hpushed (fun i hi => ?_) ?_ preliminary
    · exact (hlow i hi).elim (capsules i) fun heq => ⟨body, heq⟩
    · unfold OpeningQueued
      rw [hhigh]
      exact queued
  | accepted past channel_eq high capsules pending preliminary data =>
    obtain ⟨pushed, hpushed, hhigh, hlow⟩ := hpush _ channel_eq
    refine .accepted past hpushed (hhigh.trans high) (fun i hi => ?_) pending preliminary data
    exact (hlow i hi).elim (capsules i) fun heq => ⟨body, heq⟩
  | gone past partialResponse headersSend pending channel ordered =>
    exact .gone past partialResponse headersSend pending
      (by simp [StreamEntries.pushLow, channel]) ordered

/-- The stage does not depend on where a worker stands before the opening, or after. -/
theorem Stage.advance (h : Stage streamId entries worker opened handed) {worker' : WorkerPc}
    (hpast : opened = true → worker'.Past) : Stage streamId entries worker' opened handed := by
  cases h with
  | unopened partialResponse headersSend pending queues preliminary =>
    exact .unopened partialResponse headersSend pending queues preliminary
  | waiting _ partialResponse headersSend channel_eq capsules queued preliminary =>
    exact .waiting (hpast rfl) partialResponse headersSend channel_eq capsules queued preliminary
  | accepted _ channel_eq high capsules pending preliminary data =>
    exact .accepted (hpast rfl) channel_eq high capsules pending preliminary data
  | gone _ partialResponse headersSend pending channel ordered =>
    exact .gone (hpast rfl) partialResponse headersSend pending channel ordered

/-- The queues of the stream are made before the opening. -/
theorem Stage.insertNewChannel (h : Stage streamId entries worker false handed)
    (sender : ChunkSender) :
    Stage streamId { entries with channel := some { sender } } worker false handed := by
  cases h with
  | unopened partialResponse headersSend pending queues preliminary =>
    refine .unopened partialResponse headersSend pending (fun channel hchannel => ?_) preliminary
    cases hchannel
    exact ⟨fun _ h => absurd h List.not_mem_nil, rfl, rfl⟩

/-- The interim header is queued before the opening. -/
theorem Stage.pushInterim (h : Stage streamId entries worker false handed) :
    Stage streamId (entries.pushHigh (.header (receptionStatus streamId))) worker false handed := by
  cases h with
  | unopened partialResponse headersSend pending queues preliminary =>
    refine .unopened partialResponse headersSend pending (fun channel hchannel => ?_) preliminary
    obtain ⟨old, hold, rfl⟩ := Option.map_eq_some_iff.mp hchannel
    obtain ⟨hhigh, hlow, hreset⟩ := queues old hold
    refine ⟨fun i hi => ?_, hlow, hreset⟩
    rcases List.mem_append.mp hi with hi | hi
    · exact hhigh i hi
    · exact List.mem_singleton.mp hi

/-- The opening is queued behind the interim header. -/
theorem Stage.pushOpening (h : Stage streamId entries worker false handed) {channel : Channel}
    (hchannel : entries.channel = some channel) :
    Stage streamId (entries.pushHigh (.header opening)) .opened true handed := by
  cases h with
  | unopened partialResponse headersSend pending queues preliminary =>
    obtain ⟨hhigh, hlow, -⟩ := queues channel hchannel
    have hpushed : (entries.pushHigh (.header opening)).channel =
        some { channel with high := channel.high ++ [.header opening] } := by
      simp [StreamEntries.pushHigh, hchannel]
    refine .waiting trivial partialResponse headersSend hpushed ?_
      (.inl ⟨channel.high, hhigh, rfl, pending⟩) preliminary
    intro i hi
    simp [hlow] at hi

/-! ### The network thread -/

theorem highEmpty_eq_false {channel : Channel} (hunfinished : entries.partialResponse = none)
    (hpending : entries.pendingBodyQueue = []) (hchannel : entries.channel = some channel)
    (hhigh : entries.HighEmpty = false) : ∃ item high, channel.high = item :: high := by
  cases hitems : channel.high with
  | nil => simp [StreamEntries.HighEmpty, hunfinished, hpending, hchannel, hitems] at hhigh
  | cons item high => exact ⟨item, high, rfl⟩

/-- With nothing to attempt nothing changes. -/
theorem serve_of_nothing (hitem : nextItem entries = none)
    (hserve : serve http3Conn streamId entries answers = .ok (entries', chunkable)) :
    entries' = entries ∧ chunkable = none ∧ attempted entries = none := by
  rw [serve_eq, hitem] at hserve
  have hnone : attempted entries = none := by simp [attempted, hitem]
  split at hserve <;> cases hserve <;> exact ⟨rfl, rfl, hnone⟩

theorem serve_of_item {item : QueuedRequest} {popped : StreamEntries}
    (hunfinished : entries.partialResponse = none) (hitem : nextItem entries = some (item, popped))
    (hserve : serve http3Conn streamId entries answers = .ok (entries', chunkable)) :
    serveItem http3Conn streamId item popped answers = .ok (entries', chunkable) ∧
      attempted entries = some item := by
  rw [serve_eq, hunfinished, hitem] at hserve
  exact ⟨hserve, by simp [attempted, hunfinished, hitem]⟩

/-- Before the opening only the interim header is attempted. -/
theorem Stage.serve_unopened (h : Stage streamId entries worker false handed)
    (hhigh : entries.HighEmpty = false)
    (hserve : serve http3Conn streamId entries answers = .ok (entries', chunkable)) :
    chunkable = none ∧ Stage streamId entries' worker false
      (handed ++ ((attempted entries).map (.ofItem answers)).toList) := by
  cases h with
  | unopened partialResponse headersSend pending queues preliminary =>
    have hsame : Stage streamId entries worker false handed :=
      .unopened partialResponse headersSend pending queues preliminary
    cases hp : entries.pendingBodyQueue with
    | cons item rest =>
      have hinterim : item.isOpening = false := by
        rw [pending item (by simp [hp])]
        rfl
      obtain ⟨rfl, rfl, hnone⟩ := serve_of_nothing (nextItem_of_parked hp hinterim) hserve
      exact ⟨rfl, by simpa [hnone] using hsame⟩
    | nil =>
      cases hchannel : entries.channel with
      | none =>
        obtain ⟨rfl, rfl, hnone⟩ := serve_of_nothing (nextItem_of_noChannel hp hchannel) hserve
        exact ⟨rfl, by simpa [hnone] using hsame⟩
      | some channel =>
        obtain ⟨hinterims, hlow, hreset⟩ := queues channel hchannel
        obtain ⟨item, high, hitems⟩ := highEmpty_eq_false partialResponse hp hchannel hhigh
        have hitem : item = .header (receptionStatus streamId) := hinterims item (by simp [hitems])
        subst hitem
        obtain ⟨hserved, hattempted⟩ :=
          serve_of_item partialResponse (nextItem_of_high hp hchannel hitems) hserve
        obtain ⟨rfl, hunfinished', hsend', hchannel', hpending'⟩ := serveItem_interim hserved
        refine ⟨rfl, .unopened (hunfinished'.trans partialResponse) (hsend'.trans headersSend) ?_ ?_ ?_⟩
        · intro i hi
          rcases hpending' with hpending' | hpending'
          · exact pending i (hpending' ▸ hi)
          · rw [hpending'] at hi
            rcases List.mem_cons.mp hi with hi | hi
            · exact hi
            · exact pending i hi
        · intro channel' hc
          rw [hchannel'] at hc
          cases hc
          exact ⟨fun i hi => hinterims i (by simp [hitems, show i ∈ high from hi]), hlow, hreset⟩
        · rw [hattempted]
          exact preliminary_snoc preliminary (.inl rfl)

/-- An attempt at the opening, after it left the queues. -/
theorem Stage.serveItem_opening (popped : StreamEntries) (channel : Channel) (past : worker.Past)
    (partialResponse : popped.partialResponse = none) (headersSend : popped.headersSend = false)
    (channel_eq : popped.channel = some channel) (high : channel.high = [])
    (capsules : ∀ i ∈ channel.low, i.IsCapsule) (pending : popped.pendingBodyQueue = [])
    (preliminary : ∀ h ∈ handed, h.Preliminary)
    (hserve : serveItem http3Conn streamId (.header opening) popped answers =
      .ok (entries', chunkable)) :
    chunkable = none ∧ Stage streamId entries' worker true
      (handed ++ (some (Handed.ofItem answers (.header opening))).toList) := by
  obtain ⟨rfl, hserved⟩ := FacesHttp3.SendLoop.serveItem_opening hserve
  refine ⟨rfl, ?_⟩
  rcases hserved with ⟨hok, hchannel', hpending'⟩ | ⟨herror, hserved⟩
  · have hlast : Handed.ofItem answers (.header opening) = .header opening true :=
      congrArg (Handed.header opening) hok
    rw [hlast]
    exact .accepted past (hchannel'.trans channel_eq) high capsules (by simp [hpending', pending])
      preliminary (fun _ h => absurd h List.not_mem_nil)
  · have hpreliminary := preliminary_snoc preliminary
      (show (Handed.ofItem answers (.header opening)).Preliminary from .inr herror)
    rcases hserved with rfl | rfl
    · exact .waiting past partialResponse headersSend channel_eq capsules
        (.inr ⟨high, by simp [StreamEntries.park, pending]⟩) hpreliminary
    · exact .gone past rfl rfl rfl rfl (.inl hpreliminary)

/-- While the opening waits it is attempted, or an interim header before it. -/
theorem Stage.serve_waiting {channel : Channel} (past : worker.Past)
    (partialResponse : entries.partialResponse = none) (headersSend : entries.headersSend = false)
    (channel_eq : entries.channel = some channel) (capsules : ∀ i ∈ channel.low, i.IsCapsule)
    (queued : OpeningQueued streamId entries channel) (preliminary : ∀ h ∈ handed, h.Preliminary)
    (hserve : serve http3Conn streamId entries answers = .ok (entries', chunkable)) :
    chunkable = none ∧ Stage streamId entries' worker true
      (handed ++ ((attempted entries).map (.ofItem answers)).toList) := by
  have hsame : Stage streamId entries worker true handed :=
    .waiting past partialResponse headersSend channel_eq capsules queued preliminary
  rcases queued with ⟨front, hfront, hqueue, hinterims⟩ | ⟨hqueue, hparked⟩
  · cases hp : entries.pendingBodyQueue with
    | cons item rest =>
      have hinterim : item.isOpening = false := by
        rw [hinterims item (by simp [hp])]
        rfl
      obtain ⟨rfl, rfl, hnone⟩ := serve_of_nothing (nextItem_of_parked hp hinterim) hserve
      exact ⟨rfl, by simpa [hnone] using hsame⟩
    | nil =>
      cases front with
      | nil =>
        obtain ⟨hserved, hattempted⟩ :=
          serve_of_item partialResponse (nextItem_of_high hp channel_eq hqueue) hserve
        rw [hattempted]
        exact Stage.serveItem_opening { entries with channel := some { channel with high := [] } } _ past
          partialResponse headersSend rfl rfl capsules hp preliminary hserved
      | cons item front =>
        obtain rfl : item = .header (receptionStatus streamId) := hfront item (by simp)
        obtain ⟨hserved, hattempted⟩ :=
          serve_of_item partialResponse (nextItem_of_high hp channel_eq hqueue) hserve
        obtain ⟨rfl, hunfinished', hsend', hchannel', hpending'⟩ := serveItem_interim hserved
        rw [hattempted]
        refine ⟨rfl, .waiting past (hunfinished'.trans partialResponse) (hsend'.trans headersSend)
          hchannel' capsules (.inl ⟨front, fun i hi => hfront i (by simp [hi]), rfl, ?_⟩)
          (preliminary_snoc preliminary (.inl rfl))⟩
        intro i hi
        rcases hpending' with hpending' | hpending'
        · rw [hpending'] at hi
          simp [hp] at hi
        · rw [hpending'] at hi
          simpa [hp] using hi
  · obtain ⟨hserved, hattempted⟩ :=
      serve_of_item partialResponse (nextItem_of_parkedOpening hparked rfl) hserve
    rw [hattempted]
    exact Stage.serveItem_opening { entries with pendingBodyQueue := [] } _ past partialResponse
      headersSend channel_eq hqueue capsules rfl preliminary hserved

/-- After the opening only capsules are attempted. -/
theorem Stage.serveItem_accepted {content : BodyRequest} (popped : StreamEntries)
    (channel : Channel) {before after : List Handed} (past : worker.Past)
    (channel_eq : popped.channel = some channel) (high : channel.high = [])
    (capsules : ∀ i ∈ channel.low, i.IsCapsule) (pending : ∀ i ∈ popped.pendingBodyQueue, i.IsCapsule)
    (preliminary : ∀ h ∈ before, h.Preliminary) (data : ∀ h ∈ after, h = .data)
    (hserve : serveItem http3Conn streamId (.streamData content) popped answers =
      .ok (entries', chunkable)) :
    chunkable = none ∧ Stage streamId entries' worker true
      (before ++ .header opening true :: after ++ [.data]) := by
  obtain ⟨rfl, hchannel', hpending'⟩ := serveItem_capsule hserve
  refine ⟨rfl, ?_⟩
  rw [List.append_assoc, List.cons_append]
  refine .accepted past (hchannel'.trans channel_eq) high capsules (fun i hi => ?_) preliminary
    fun h hh => ?_
  · rcases hpending' with hpending' | ⟨parked, hpending'⟩
    · exact pending i (hpending' ▸ hi)
    · rw [hpending'] at hi
      rcases List.mem_cons.mp hi with hi | hi
      · exact ⟨parked, hi⟩
      · exact pending i hi
  · rcases List.mem_append.mp hh with hh | hh
    · exact data h hh
    · exact List.mem_singleton.mp hh

/-- The network thread attempts nothing, an interim header or the opening. -/
theorem Stage.serve (h : Stage streamId entries worker opened handed)
    (hhigh : entries.HighEmpty = false)
    (hserve : serve http3Conn streamId entries answers = .ok (entries', chunkable)) :
    chunkable = none ∧ Stage streamId entries' worker opened
      (handed ++ ((attempted entries).map (.ofItem answers)).toList) := by
  cases h with
  | unopened partialResponse headersSend pending queues preliminary =>
    exact Stage.serve_unopened (.unopened partialResponse headersSend pending queues preliminary) hhigh
      hserve
  | waiting past partialResponse headersSend channel_eq capsules queued preliminary =>
    exact Stage.serve_waiting past partialResponse headersSend channel_eq capsules queued preliminary
      hserve
  | accepted past channel_eq high capsules pending preliminary data =>
    have hsame : Stage streamId entries worker true _ :=
      .accepted past channel_eq high capsules pending preliminary data
    have hnothing : entries' = entries ∧ chunkable = none ∧ attempted entries = none := by
      cases hunfinished : entries.partialResponse with
      | some resp =>
        rw [serve_eq, hunfinished] at hserve
        cases hserve
        exact ⟨rfl, rfl, by simp [attempted, hunfinished]⟩
      | none =>
        cases hp : entries.pendingBodyQueue with
        | nil =>
          obtain ⟨item, items, hitems⟩ := highEmpty_eq_false hunfinished hp channel_eq hhigh
          rw [high] at hitems
          cases hitems
        | cons item rest =>
          obtain ⟨content, rfl⟩ := pending item (by simp [hp])
          exact serve_of_nothing (nextItem_of_parked hp rfl) hserve
    obtain ⟨rfl, rfl, hnone⟩ := hnothing
    exact ⟨rfl, by simpa [hnone] using hsame⟩
  | gone past partialResponse headersSend pending channel ordered =>
    have hsame : Stage streamId entries worker true handed :=
      .gone past partialResponse headersSend pending channel ordered
    obtain ⟨rfl, rfl, hnone⟩ := serve_of_nothing (nextItem_of_noChannel pending channel) hserve
    exact ⟨rfl, by simpa [hnone] using hsame⟩

/-- At the second receive, with the high priority queue still empty, a capsule is
taken. -/
theorem Stage.serveLow (h : Stage streamId entries worker opened handed) {channel : Channel}
    {item : QueuedRequest} {low : List QueuedRequest} (hpending : entries.pendingBodyQueue = [])
    (hchannel : entries.channel = some channel) (hempty : channel.high = [])
    (hlow : channel.low = item :: low) : item.IsCapsule ∧ ∀ http3Conn answers entries' chunkable,
      serveItem http3Conn streamId item { entries with channel := some { channel with low } } answers =
        .ok (entries', chunkable) →
      chunkable = none ∧ Stage streamId entries' worker opened (handed ++ [.ofItem answers item]) := by
  cases h with
  | unopened _ _ _ queues =>
    have hnone := (queues channel hchannel).2.1
    rw [hlow] at hnone
    cases hnone
  | waiting _ _ _ channel_eq _ queued =>
    cases channel_eq.symm.trans hchannel
    rcases queued with ⟨front, -, hqueue, -⟩ | ⟨-, hparked⟩
    · simp [hempty] at hqueue
    · simp [hpending] at hparked
  | accepted past channel_eq high capsules pending preliminary data =>
    cases channel_eq.symm.trans hchannel
    obtain ⟨content, rfl⟩ := capsules item (by simp [hlow])
    refine ⟨⟨content, rfl⟩, fun http3Conn answers entries' chunkable hserve => ?_⟩
    refine Stage.serveItem_accepted { entries with channel := some { channel with low } } _ past rfl
      high (fun i hi => capsules i ?_) pending preliminary data hserve
    rw [hlow]
    exact List.mem_cons_of_mem _ hi
  | gone _ _ _ _ channel_eq =>
    rw [channel_eq] at hchannel
    cases hchannel

/-- Headers were sent, so data may be. -/
theorem Stage.handData (h : Stage streamId entries worker opened handed)
    (hsend : entries.headersSend = true) :
    Stage streamId entries worker opened (handed ++ [.data]) := by
  cases h with
  | unopened _ headersSend | waiting _ _ headersSend | gone _ _ headersSend =>
    rw [headersSend] at hsend
    cases hsend
  | accepted past channel_eq high capsules pending preliminary data =>
    rw [List.append_assoc, List.cons_append]
    refine .accepted past channel_eq high capsules pending preliminary fun h hh => ?_
    rcases List.mem_append.mp hh with hh | hh
    · exact data h hh
    · exact List.mem_singleton.mp hh

theorem Stage.drain (h : Stage streamId entries worker opened handed)
    {streamWritable : Except H3Error Bool}
    (hdrain : SendLoop.drain http3Conn entries streamWritable answers = .ok entries') :
    Stage streamId entries' worker opened handed := by
  cases h with
  | accepted past channel_eq high capsules pending preliminary data =>
    obtain ⟨hchannel', hpending'⟩ := drain_queues hdrain
    exact .accepted past (hchannel'.trans channel_eq) high capsules (hpending' ▸ pending) preliminary
      data
  | unopened partialResponse headersSend pending queues preliminary =>
    obtain rfl := drain_of_not_headersSend headersSend hdrain
    exact .unopened partialResponse headersSend pending queues preliminary
  | waiting past partialResponse headersSend channel_eq capsules queued preliminary =>
    obtain rfl := drain_of_not_headersSend headersSend hdrain
    exact .waiting past partialResponse headersSend channel_eq capsules queued preliminary
  | gone past partialResponse headersSend pending channel ordered =>
    obtain rfl := drain_of_not_headersSend headersSend hdrain
    exact .gone past partialResponse headersSend pending channel ordered

/-! ### Panics -/

/-- The headers of a downstream carry no body. -/
theorem Stage.queued_header (h : Stage streamId entries worker opened handed)
    {request : HeaderRequest} (hitem : .header request ∈ queuedItems entries) :
    request.attachedBody = none := by
  have hinterim : ∀ items, AllInterim streamId items → .header request ∈ items →
      request.attachedBody = none := by
    intro items hitems hmem
    cases hitems _ hmem
    rfl
  have hcapsules : ∀ items : List QueuedRequest, (∀ i ∈ items, i.IsCapsule) →
      .header request ∉ items := by
    intro items hitems hmem
    obtain ⟨content, hcontent⟩ := hitems _ hmem
    cases hcontent
  cases h with
  | unopened _ _ pending queues =>
    cases hchannel : entries.channel with
    | none => exact hinterim _ pending (by simpa [queuedItems, hchannel] using hitem)
    | some channel =>
      obtain ⟨hhigh, hlow, -⟩ := queues channel hchannel
      simp only [queuedItems, hchannel, hlow, List.append_nil, List.mem_append] at hitem
      exact hitem.elim (hinterim _ pending) (hinterim _ hhigh)
  | waiting _ _ _ channel_eq capsules queued =>
    simp only [queuedItems, channel_eq, List.mem_append] at hitem
    rcases queued with ⟨front, hfront, hhigh, hpending⟩ | ⟨hhigh, hparked⟩
    · simp only [hhigh, List.mem_append, List.mem_singleton] at hitem
      rcases hitem with hitem | (hitem | hitem) | hitem
      · exact hinterim _ hpending hitem
      · exact hinterim _ hfront hitem
      · cases hitem
        rfl
      · exact absurd hitem (hcapsules _ capsules)
    · simp only [hhigh, hparked, List.mem_singleton, List.not_mem_nil, false_or] at hitem
      rcases hitem with hitem | hitem
      · cases hitem
        rfl
      · exact absurd hitem (hcapsules _ capsules)
  | accepted _ channel_eq high capsules pending =>
    simp only [queuedItems, channel_eq, high, List.nil_append, List.mem_append] at hitem
    exact absurd hitem (not_or.mpr ⟨hcapsules _ pending, hcapsules _ capsules⟩)
  | gone _ _ _ pending channel =>
    simp [queuedItems, pending, channel] at hitem

theorem Stage.serve_ok (h : Stage streamId entries worker opened handed)
    (hsound : Sound http3Conn entries) (answers : Answers) :
    ∃ next chunkable, SendLoop.serve http3Conn streamId entries answers = .ok (next, chunkable) := by
  rcases serve_sound streamId answers hsound with
    ⟨next, chunkable, hserve, -⟩ | ⟨-, hfile⟩
  · exact ⟨next, chunkable, hserve⟩
  · refine absurd (fun _ request popped hitem => ?_) hfile
    intro filePath sender hbody
    rw [h.queued_header (nextItem_queued hitem).1] at hbody
    cases hbody

end Stages

/-! ## Runs -/

/-- The stream's queues were removed and nothing of it is left to send. -/
structure StreamEntries.Closed (entries : StreamEntries) : Prop where
  channel : entries.channel = none
  partialResponse : entries.partialResponse = none
  pending : entries.pendingBodyQueue = []

/-- The opening was queued when the worker goes on to its callback. -/
def WorkerPc.Opened : WorkerPc → Prop
  | .opened | .calling | .failing => True
  | _ => False

structure OpeningInv (streamId : StreamId) (s : Downstream) : Prop where
  sound : AllSound s.loop
  stage : Stage streamId (s.loop.streams streamId) s.worker s.opened s.handed
  chunkables : s.loop.chunkables streamId = []
  looking : s.looking = true → (s.loop.streams streamId).partialResponse = none ∧
    (s.loop.streams streamId).pendingBodyQueue = []
  worker : s.worker.Opened → s.opened = true
  called : s.called = true → s.opened = true
  reset : ∀ n, s.resetAt = some n →
    s.opened = true ∧ (s.loop.streams streamId).Closed ∧ s.handed.length = n

section Runs
variable {streamId : StreamId} {s t : Downstream} {loop : State} {action : Action}

theorem openingInv_init (streamId : StreamId) : OpeningInv streamId {} where
  sound := allSound_init
  stage := .unopened rfl rfl (fun _ h => absurd h List.not_mem_nil) (fun _ h => by cases h)
    fun _ h => absurd h List.not_mem_nil
  chunkables := rfl
  looking h := by cases h
  worker h := h.elim
  called h := by cases h
  reset n h := by cases h

/-! ### The stream's workers and publishers -/

/-- A worker's step leaves what was parked, and makes no queues for a stream that
was reset. -/
theorem OpeningInv.work (h : OpeningInv streamId s) {entries : StreamEntries} {worker : WorkerPc}
    {opened called : Bool} (hsound : AllSound loop) (hentries : loop.streams streamId = entries)
    (hstation : loop.station = s.loop.station)
    (hstage : Stage streamId entries worker opened s.handed)
    (hunfinished : entries.partialResponse = (s.loop.streams streamId).partialResponse)
    (hpending : entries.pendingBodyQueue = (s.loop.streams streamId).pendingBodyQueue)
    (hchannel : s.opened = true → (s.loop.streams streamId).channel = none → entries.channel = none)
    (hopened : s.opened = true → opened = true) (hworker : worker.Opened → opened = true)
    (hcalled : called = true → opened = true) :
    OpeningInv streamId { s with loop, worker, opened, called } where
  sound := hsound
  stage := hentries ▸ hstage
  chunkables := by
    have hnone := h.chunkables
    unfold State.chunkables at hnone ⊢
    rw [hstation]
    exact hnone
  looking hlooking := by
    rw [hentries, hunfinished, hpending]
    exact h.looking hlooking
  worker := hworker
  called := hcalled
  reset n hreset := by
    obtain ⟨hopen, hclosed, hlength⟩ := h.reset n hreset
    refine ⟨hopened hopen, ?_, hlength⟩
    rw [hentries]
    exact ⟨hchannel hopen hclosed.channel, hunfinished.trans hclosed.partialResponse,
      hpending.trans hclosed.pending⟩

theorem OpeningInv.unopened (h : OpeningInv streamId s) (hpast : ¬ s.worker.Past) :
    s.opened = false := by
  have hstage := h.stage
  cases hopen : s.opened with
  | false => rfl
  | true =>
    rw [hopen] at hstage
    exact absurd hstage.past hpast

theorem OpeningInv.insertNewChannel (h : OpeningInv streamId s) (hopen : s.opened = false)
    (hstep : step s.loop (.insertNewChannel streamId) = some loop) {worker : WorkerPc}
    (hworker : ¬ worker.Opened) : OpeningInv streamId { s with loop, worker } := by
  have hsound := allSound_step h.sound hstep
  have hstage := hopen ▸ h.stage
  have hcalled : s.called = true → s.opened = true := h.called
  obtain ⟨-, hloop⟩ := guarded_eq_some_iff.mp hstep
  split at hloop <;> subst hloop
  · refine h.work hsound rfl rfl (h.stage.advance fun htrue => ?_) rfl rfl (fun _ => id) id
      (fun hw => absurd hw hworker) h.called
    rw [hopen] at htrue
    cases htrue
  · refine h.work hsound (setStream_self _) rfl ?_ rfl rfl (fun htrue => ?_) id
      (fun hw => absurd hw hworker) h.called
    · rw [hopen]
      exact (hstage.insertNewChannel _).advance fun htrue => by cases htrue
    · rw [hopen] at htrue
      cases htrue

theorem OpeningInv.sendReceptionStatus (h : OpeningInv streamId s) (hopen : s.opened = false)
    (hstep : step s.loop
      (.sendToHighPriorityQueue streamId (.header (receptionStatus streamId))) = some loop) :
    OpeningInv streamId { s with loop, worker := .reported } := by
  have hsound := allSound_step h.sound hstep
  have hstage := hopen ▸ h.stage
  obtain ⟨-, rfl⟩ := guarded_eq_some_iff.mp hstep
  refine h.work hsound (setStream_self _) rfl ?_ rfl rfl (fun _ hnone => ?_) id (fun hw => hw.elim)
    h.called
  · rw [hopen]
    exact hstage.pushInterim.advance fun htrue => by cases htrue
  · simp [StreamEntries.pushHigh, hnone]

theorem OpeningInv.openStream (h : OpeningInv streamId s) (hopen : s.opened = false)
    {channel : Channel} (hchannel : (s.loop.streams streamId).channel = some channel)
    (hstep : step s.loop (.sendToHighPriorityQueue streamId (.header opening)) = some loop) :
    OpeningInv streamId { s with loop, worker := .opened, opened := true } := by
  have hsound := allSound_step h.sound hstep
  have hstage := hopen ▸ h.stage
  obtain ⟨-, rfl⟩ := guarded_eq_some_iff.mp hstep
  refine h.work hsound (setStream_self _) rfl (hstage.pushOpening hchannel) rfl rfl
    (fun _ hnone => ?_) (fun _ => rfl) (fun _ => rfl) fun _ => rfl
  rw [hnone] at hchannel
  cases hchannel

/-- The worker moves on without touching the connection. -/
theorem OpeningInv.advance (h : OpeningInv streamId s) {worker : WorkerPc} {called : Bool}
    (hpast : s.opened = true → worker.Past) (hworker : worker.Opened → s.opened = true)
    (hcalled : called = true → s.opened = true) :
    OpeningInv streamId { s with worker, called } :=
  h.work h.sound rfl rfl (h.stage.advance hpast) rfl rfl (fun _ => id) id hworker hcalled

theorem OpeningInv.requestReset (h : OpeningInv streamId s) (hopen : s.opened = true)
    (hstep : step s.loop (.requestStreamReset streamId) = some loop) :
    OpeningInv streamId { s with loop, worker := .done } := by
  have hsound := allSound_step h.sound hstep
  have hstage := hopen ▸ h.stage
  obtain ⟨-, rfl⟩ := guarded_eq_some_iff.mp hstep
  refine h.work hsound (setStream_self _) rfl ?_ rfl rfl (fun _ hnone => ?_) id (fun hw => hw.elim)
    h.called
  · rw [hopen]
    exact hstage.requestReset.advance fun _ => trivial
  · simp [StreamEntries.requestReset, hnone]

theorem OpeningInv.publish (h : OpeningInv streamId s) (hcalled : s.called = true)
    {sender : ChunkSender} {body : BodyRequest}
    (hstep : step s.loop (.send streamId sender body) = some loop) :
    OpeningInv streamId { s with loop } := by
  have hsound := allSound_step h.sound hstep
  have hopen := h.called hcalled
  have hstage := hopen ▸ h.stage
  obtain ⟨-, rfl⟩ := guarded_eq_some_iff.mp hstep
  refine h.work hsound (setStream_self _) rfl ?_ rfl rfl (fun _ hnone => ?_) id h.worker h.called
  · rw [hopen]
    exact hstage.publish sender body
  · simp [StreamEntries.pushLow, hnone]

/-! ### The network thread -/

theorem OpeningInv.look (h : OpeningInv streamId s)
    (hhigh : (s.loop.streams streamId).HighEmpty = true) :
    OpeningInv streamId { s with looking := true } := by
  refine { h with looking := fun _ => ?_ }
  simp only [StreamEntries.HighEmpty, Bool.and_eq_true, Option.isNone_iff_eq_none,
    List.isEmpty_iff] at hhigh
  exact hhigh.1

theorem OpeningInv.lookAway (h : OpeningInv streamId s) :
    OpeningInv streamId { s with looking := false } :=
  { h with looking := fun hlooking => by cases hlooking }

theorem OpeningInv.serveLow (h : OpeningInv streamId s) (hlooking : s.looking = true)
    {channel : Channel} {item : QueuedRequest} {low : List QueuedRequest} {answers : Answers}
    (hchannel : (s.loop.streams streamId).channel = some channel) (hempty : channel.high = [])
    (hlow : channel.low = item :: low) :
    OpeningInv streamId { s with
      looking := false
      loop := s.loop.commit streamId (serveItem s.loop.http3Conn streamId item
        { s.loop.streams streamId with channel := some { channel with low } } answers)
      handed := s.handed ++ [.ofItem answers item] } := by
  obtain ⟨-, hpending⟩ := h.looking hlooking
  have hsound := h.sound streamId
  have hconn : s.loop.http3Conn = true := by
    cases hconn : s.loop.http3Conn with
    | true => rfl
    | false => cases hchannel.symm.trans (hsound.connected hconn).2.2
  rw [hconn] at hsound ⊢
  obtain ⟨⟨content, rfl⟩, hstage⟩ := h.stage.serveLow hpending hchannel hempty hlow
  have hpopped : Sound true { s.loop.streams streamId with channel := some { channel with low } } := by
    refine hsound.of_items hsound.written fun i hi => .inl ?_
    simp only [queuedItems, hpending, hchannel, hempty, hlow, List.nil_append, List.mem_cons] at hi ⊢
    exact .inr hi
  obtain ⟨next, hserve, hnext⟩ :=
    serveProgression_sound hpopped .streamData (fun _ => trivial) content answers
  have hitem : serveItem true streamId (.streamData content)
      { s.loop.streams streamId with channel := some { channel with low } } answers =
        .ok (next, none) := by
    simp [serveItem, hserve, bind, Except.bind, pure, Except.pure]
  obtain ⟨-, hstage⟩ := hstage _ _ next none hitem
  rw [hitem]
  refine ⟨fun id => ?_, ?_, ?_, (fun hl => by cases hl), h.worker, h.called, fun n hreset => ?_⟩
  · by_cases hid : id = streamId
    · subst hid
      simpa [State.commit, setStream_self, State.setStream, hconn] using hnext
    · simpa [State.commit, State.setStream, hid, hconn] using h.sound id
  · simpa [State.commit, State.setStream] using hstage
  · simpa [State.commit, State.chunkables, State.setStream] using h.chunkables
  · obtain ⟨-, hclosed, -⟩ := h.reset n hreset
    cases hchannel.symm.trans hclosed.channel

/-- Steps of the network thread on the stream. -/
def Action.Serves (streamId : StreamId) : Action → Bool
  | .resetRequested id | .drain id _ _ | .serve id _ => id = streamId
  | _ => false

/-- The other steps leave the stream alone. -/
theorem unserved (hstep : step s.loop action = some loop)
    (hsplit : Split streamId s.loop action = false) (hserves : action.Serves streamId = false)
    (hchunkables : s.loop.chunkables streamId = []) :
    loop.streams streamId = s.loop.streams streamId ∧ loop.chunkables streamId = [] := by
  by_cases hp : loop.panicked = none
  case neg =>
    obtain ⟨hstreams, hstation⟩ := step_of_panicked hstep hp
    unfold State.chunkables at hchunkables ⊢
    rw [hstreams, hstation]
    exact ⟨rfl, hchunkables⟩
  have hproduces : ¬ action.Produces streamId := by
    cases action <;> simp_all [Split, Action.Produces]
  cases step_stream hstep hp hproduces with
  | elsewhere entries chunkables => exact ⟨entries, chunkables.trans hchunkables⟩
  | waited _ before | chunked _ before =>
    rw [hchunkables] at before
    cases before
  | resetAsked => simp [Split] at hsplit
  | reset | drained | served => simp [Action.Serves] at hserves

theorem handing_of_unserved (hserves : action.Serves streamId = false) :
    handing streamId s.loop action = none := by
  cases action with
  | drain id streamWritable answers =>
    have hid : id ≠ streamId := by simpa [Action.Serves] using hserves
    cases streamWritable with
    | error e => rfl
    | ok writable => cases writable <;> simp [handing, hid]
  | serve id answers =>
    have hid : id ≠ streamId := by simpa [Action.Serves] using hserves
    simp [handing, hid]
  | http3Connected | insertNewChannel | sendToHighPriorityQueue | send | requestStreamReset | chunk
    | resetRequested => rfl

theorem markReset_of_unserved (hserves : action.Serves streamId = false) :
    s.markReset streamId action = s.resetAt := by
  cases action with
  | resetRequested id =>
    have hid : id ≠ streamId := by simpa [Action.Serves] using hserves
    simp [Downstream.markReset, hid]
  | http3Connected | insertNewChannel | sendToHighPriorityQueue | send | requestStreamReset | chunk
    | drain | serve => rfl

theorem handing_drain (s : Downstream) (streamId : StreamId) (streamWritable : Except H3Error Bool)
    (answers : Answers) :
    handing streamId s.loop (.drain streamId streamWritable answers) = none ∨
      handing streamId s.loop (.drain streamId streamWritable answers) = some .data ∧
        (s.loop.streams streamId).headersSend = true ∧
        (s.loop.streams streamId).partialResponse.isSome = true := by
  cases streamWritable with
  | error e => exact .inl rfl
  | ok writable =>
    cases writable with
    | false => exact .inl rfl
    | true =>
      simp only [handing, true_and]
      by_cases hcond : (s.loop.streams streamId).headersSend = true ∧
          (s.loop.streams streamId).partialResponse.isSome = true
      · exact .inr ⟨if_pos hcond, hcond⟩
      · exact .inl (if_neg hcond)

/-- A step of the network thread that hands nothing over and leaves a closed stream
closed. -/
theorem OpeningInv.serve (h : OpeningInv streamId s) (hstep : step s.loop action = some loop)
    (hlooking : s.looking = false) {handed : List Handed} {resetAt : Option Nat}
    (hstage : Stage streamId (loop.streams streamId) s.worker s.opened handed)
    (hchunkables : loop.chunkables streamId = [])
    (hreset : ∀ n, resetAt = some n →
      s.opened = true ∧ (loop.streams streamId).Closed ∧ handed.length = n) :
    OpeningInv streamId { s with loop, handed, resetAt } where
  sound := allSound_step h.sound hstep
  stage := hstage
  chunkables := hchunkables
  looking htrue := by cases hlooking.symm.trans htrue
  worker := h.worker
  called := h.called
  reset := hreset

theorem OpeningInv.resetRequested (h : OpeningInv streamId s) (hlooking : s.looking = false)
    (hstep : step s.loop (.resetRequested streamId) = some loop) :
    OpeningInv streamId { s with loop, resetAt := s.markReset streamId (.resetRequested streamId) } := by
  obtain ⟨-, hloop⟩ := guarded_eq_some_iff.mp hstep
  cases hreq : (s.loop.streams streamId).isResetRequested with
  | true =>
    rw [hreq, if_pos rfl] at hloop
    subst hloop
    have hopen := h.stage.opened_of_reset hreq
    have hclosed : (s.loop.streams streamId).resetFailedStream.Closed := ⟨rfl, rfl, rfl⟩
    refine h.serve hstep hlooking ?_ h.chunkables fun n hn => ?_
    · have hstage := h.stage
      rw [hopen] at hstage ⊢
      rw [setStream_self]
      exact hstage.reset
    · rw [setStream_self]
      refine ⟨hopen, hclosed, ?_⟩
      simpa [Downstream.markReset, hreq] using hn
  | false =>
    rw [hreq, if_neg Bool.false_ne_true] at hloop
    subst hloop
    refine h.serve hstep hlooking h.stage h.chunkables fun n hn => ?_
    simp only [Downstream.markReset, hreq, Bool.false_eq_true, and_false, if_false] at hn
    exact h.reset n hn

/-- Of a stream that was reset no headers were sent. -/
theorem OpeningInv.headersSend_of_closed (h : OpeningInv streamId s) (hopen : s.opened = true)
    (hclosed : (s.loop.streams streamId).Closed) :
    (s.loop.streams streamId).headersSend = false := by
  have hstage := h.stage
  rw [hopen] at hstage
  generalize s.handed = handed at hstage
  cases hstage with
  | waiting _ _ headersSend | gone _ _ headersSend => exact headersSend
  | accepted _ channel_eq => cases channel_eq.symm.trans hclosed.channel

theorem OpeningInv.drain (h : OpeningInv streamId s) (hlooking : s.looking = false)
    {streamWritable : Except H3Error Bool} {answers : Answers}
    (hstep : step s.loop (.drain streamId streamWritable answers) = some loop) :
    OpeningInv streamId { s with
      loop
      handed := s.handed ++ (handing streamId s.loop (.drain streamId streamWritable answers)).toList } := by
  have hstage : Stage streamId (s.loop.streams streamId) s.worker s.opened
      (s.handed ++ (handing streamId s.loop (.drain streamId streamWritable answers)).toList) := by
    rcases handing_drain s streamId streamWritable answers with hnone | ⟨hdata, hsend, -⟩
    · rw [hnone]
      simpa using h.stage
    · rw [hdata]
      exact h.stage.handData hsend
  have hentries : (loop.streams streamId = s.loop.streams streamId ∨
      SendLoop.drain s.loop.http3Conn (s.loop.streams streamId) streamWritable answers =
        .ok (loop.streams streamId)) ∧ loop.station = s.loop.station := by
    obtain ⟨-, rfl⟩ := guarded_eq_some_iff.mp hstep
    cases hd : SendLoop.drain s.loop.http3Conn (s.loop.streams streamId) streamWritable answers with
    | error panic => exact ⟨.inl rfl, rfl⟩
    | ok next =>
      refine ⟨.inr ?_, by simp [State.commit, Except.map, State.setStream]⟩
      simp [State.commit, Except.map, setStream_self]
  obtain ⟨hentries, hstation⟩ := hentries
  refine h.serve hstep hlooking ?_ ?_ fun n hn => ?_
  · rcases hentries with hsame | hdrain
    · rw [hsame]
      exact hstage
    · exact hstage.drain hdrain
  · have hnone := h.chunkables
    unfold State.chunkables at hnone ⊢
    rw [hstation]
    exact hnone
  · obtain ⟨hopen, hclosed, hlength⟩ := h.reset n hn
    have hsame : loop.streams streamId = s.loop.streams streamId := by
      rcases hentries with hsame | hdrain
      · exact hsame
      · exact drain_of_not_headersSend (h.headersSend_of_closed hopen hclosed) hdrain
    rcases handing_drain s streamId streamWritable answers with hnone | ⟨-, -, hsome⟩
    · rw [hsame, hnone]
      exact ⟨hopen, hclosed, by simpa using hlength⟩
    · simp [hclosed.partialResponse] at hsome

theorem OpeningInv.serveHigh (h : OpeningInv streamId s) (hlooking : s.looking = false)
    (hhigh : (s.loop.streams streamId).HighEmpty = false) {answers : Answers}
    (hstep : step s.loop (.serve streamId answers) = some loop) :
    OpeningInv streamId { s with
      loop
      handed := s.handed ++ (handing streamId s.loop (.serve streamId answers)).toList } := by
  obtain ⟨next, chunkable, hserve⟩ := h.stage.serve_ok (h.sound streamId) answers
  obtain ⟨rfl, hstage⟩ := h.stage.serve hhigh hserve
  have hhanding : handing streamId s.loop (.serve streamId answers) =
      (attempted (s.loop.streams streamId)).map (.ofItem answers) := by simp [handing]
  rw [hhanding]
  have hloop : loop.streams streamId = next ∧ loop.station = s.loop.station := by
    obtain ⟨-, rfl⟩ := guarded_eq_some_iff.mp hstep
    rw [hserve]
    exact ⟨setStream_self _, by simp [State.commit, State.setStream]⟩
  obtain ⟨hnext, hstation⟩ := hloop
  refine h.serve hstep hlooking (hnext ▸ hstage) ?_ fun n hn => ?_
  · have hnone := h.chunkables
    unfold State.chunkables at hnone ⊢
    rw [hstation]
    exact hnone
  · obtain ⟨hopen, hclosed, hlength⟩ := h.reset n hn
    have hnothing := nextItem_of_noChannel hclosed.pending hclosed.channel
    obtain ⟨rfl, -, hnone⟩ := serve_of_nothing hnothing hserve
    rw [hnext, hnone]
    exact ⟨hopen, hclosed, by simpa using hlength⟩

theorem OpeningInv.elsewhere (h : OpeningInv streamId s) (hsplit : Split streamId s.loop action = false)
    (hlooking : ¬ (s.looking = true ∧ action.Network = true))
    (hstep : step s.loop action = some loop) :
    OpeningInv streamId { s with
      loop
      handed := s.handed ++ (handing streamId s.loop action).toList
      resetAt := s.markReset streamId action } := by
  cases hserves : action.Serves streamId with
  | false =>
    obtain ⟨hsame, hchunkables⟩ := unserved hstep hsplit hserves h.chunkables
    rw [handing_of_unserved hserves, markReset_of_unserved hserves]
    refine ⟨allSound_step h.sound hstep, ?_, hchunkables, ?_, h.worker, h.called, ?_⟩
    · rw [hsame]
      simpa using h.stage
    · rw [hsame]
      exact h.looking
    · rw [hsame]
      simpa using h.reset
  | true =>
    cases action with
    | resetRequested id =>
      obtain rfl : id = streamId := by simpa [Action.Serves] using hserves
      have hl : s.looking = false := by simpa [Action.Network] using hlooking
      simpa [handing] using h.resetRequested hl hstep
    | drain id streamWritable answers =>
      obtain rfl : id = streamId := by simpa [Action.Serves] using hserves
      have hl : s.looking = false := by simpa [Action.Network] using hlooking
      exact h.drain hl hstep
    | serve id answers =>
      obtain rfl : id = streamId := by simpa [Action.Serves] using hserves
      have hl : s.looking = false := by simpa [Action.Network] using hlooking
      exact h.serveHigh hl (by simpa [Split] using hsplit) hstep
    | http3Connected | insertNewChannel | sendToHighPriorityQueue | send | requestStreamReset | chunk =>
      cases hserves

theorem openingInv_step {a : DownstreamAction} (h : OpeningInv streamId s)
    (hempty : StillEmpty streamId s a) (hstep : downstreamStep streamId s a = some t) :
    OpeningInv streamId t := by
  cases a with
  | insertNewChannel =>
    simp only [downstreamStep, Downstream.work] at hstep
    cases hw : s.worker <;> simp only [hw, Option.map_eq_some_iff, reduceCtorEq] at hstep
    case admitted | reported =>
      obtain ⟨loop, hloop, rfl⟩ := hstep
      have hopen := h.unopened (by simp [hw, WorkerPc.Past])
      exact h.insertNewChannel hopen hloop id
  | sendReceptionStatus =>
    simp only [downstreamStep, Downstream.work] at hstep
    cases hw : s.worker <;> simp only [hw, Option.map_eq_some_iff, reduceCtorEq] at hstep
    case hasQueue =>
      obtain ⟨loop, hloop, rfl⟩ := hstep
      have hopen := h.unopened (by simp [hw, WorkerPc.Past])
      exact h.sendReceptionStatus hopen hloop
  | openStream =>
    simp only [downstreamStep, Downstream.work] at hstep
    cases hw : s.worker <;> simp only [hw, reduceCtorEq] at hstep
    case responding =>
      have hopen := h.unopened (by simp [hw, WorkerPc.Past])
      cases hchannel : (s.loop.streams streamId).channel with
      | none =>
        simp only [hchannel, Option.some.injEq] at hstep
        subst hstep
        exact h.advance (fun _ => trivial) (fun hw => hw.elim) h.called
      | some channel =>
        simp only [hchannel, Option.map_eq_some_iff] at hstep
        obtain ⟨loop, hloop, rfl⟩ := hstep
        exact h.openStream hopen hchannel hloop
  | callback =>
    simp only [downstreamStep] at hstep
    cases hw : s.worker <;> simp only [hw, Option.some.injEq, reduceCtorEq] at hstep
    case opened =>
      subst hstep
      have hopen := h.worker (by simp [hw, WorkerPc.Opened])
      exact h.advance (fun _ => trivial) (fun _ => hopen) fun _ => hopen
  | callbackReturns ok =>
    simp only [downstreamStep] at hstep
    cases hw : s.worker <;> simp only [hw, Option.some.injEq, reduceCtorEq] at hstep
    case calling =>
      subst hstep
      have hopen := h.worker (by simp [hw, WorkerPc.Opened])
      refine h.advance (fun _ => ?_) (fun _ => hopen) h.called
      cases ok <;> trivial
  | requestStreamReset =>
    simp only [downstreamStep, Downstream.work] at hstep
    cases hw : s.worker <;> simp only [hw, Option.map_eq_some_iff, reduceCtorEq] at hstep
    case failing =>
      obtain ⟨loop, hloop, rfl⟩ := hstep
      exact h.requestReset (h.worker (by simp [hw, WorkerPc.Opened])) hloop
  | publish sender body =>
    simp only [downstreamStep, Downstream.work] at hstep
    cases hcalled : s.called <;> simp only [hcalled, Bool.false_eq_true, if_false, if_true,
      Option.map_eq_some_iff, reduceCtorEq] at hstep
    obtain ⟨loop, hloop, rfl⟩ := hstep
    exact hcalled ▸ h.publish hcalled hloop
  | look =>
    obtain ⟨⟨-, -, hhigh⟩, rfl⟩ := guarded_eq_some_iff.mp hstep
    exact h.look hhigh
  | serveLow answers =>
    simp only [downstreamStep] at hstep
    cases hlooking : s.looking <;> simp only [hlooking, Bool.false_eq_true, if_false, if_true,
      reduceCtorEq] at hstep
    cases hchannel : (s.loop.streams streamId).channel with
    | none =>
      simp only [hchannel, Option.some.injEq] at hstep
      subst hstep
      exact h.lookAway
    | some channel =>
      cases hlow : channel.low with
      | nil =>
        simp only [hchannel, hlow, Option.some.injEq] at hstep
        subst hstep
        exact h.lookAway
      | cons item low =>
        simp only [hchannel, hlow, Option.some.injEq] at hstep
        subst hstep
        have hhigh : channel.high = [] := by simpa [hlow] using hempty channel hchannel
        exact h.serveLow hlooking hchannel hhigh hlow
  | loop action =>
    simp only [downstreamStep] at hstep
    split at hstep
    case isFalse => cases hstep
    rename_i hcond
    obtain ⟨loop, hloop, rfl⟩ := Option.map_eq_some_iff.mp hstep
    exact h.elsewhere hcond.1 hcond.2 hloop

end Runs

/-- A final header that the transport accepted. -/
def Handed.isFinal : Handed → Bool
  | .header request accepted => accepted && request.priorityMode != .sendHeader100
  | .data => false

/-- How a downstream opens: data follow the accepted opening, no other final header
is accepted, the callback comes after the opening was queued, and nothing is handed
over after the reset. -/
structure OpensInOrder (s : Downstream) : Prop where
  dataAfterOpening : ∀ before after, s.handed = before ++ .data :: after →
    .header opening true ∈ before
  oneFinal : s.handed.countP Handed.isFinal ≤ 1
  calledAfterOpening : s.called = true → s.opened = true
  quietAfterReset : ∀ n, s.resetAt = some n → s.handed.length = n

theorem Handed.Preliminary.not_final {h : Handed} (hpre : h.Preliminary) : h.isFinal = false := by
  cases h with
  | data => rfl
  | header request accepted =>
    rcases hpre with hinterim | hrefused
    · simp [Handed.isFinal, hinterim]
    · simp [Handed.isFinal, hrefused]

theorem countP_preliminary {handed : List Handed} (h : ∀ x ∈ handed, x.Preliminary) :
    handed.countP Handed.isFinal = 0 :=
  List.countP_eq_zero.mpr fun x hx => by simp [(h x hx).not_final]

theorem InOpeningOrder.oneFinal {handed : List Handed} (h : InOpeningOrder handed) :
    handed.countP Handed.isFinal ≤ 1 := by
  rcases h with hpre | ⟨before, after, rfl, hpre, hdata⟩
  · rw [countP_preliminary hpre]
    exact Nat.zero_le 1
  · have hafter : after.countP Handed.isFinal = 0 :=
      List.countP_eq_zero.mpr fun x hx => by simp [hdata x hx, Handed.isFinal]
    rw [List.countP_append, List.countP_cons, countP_preliminary hpre, hafter]
    split <;> omega

theorem InOpeningOrder.dataAfterOpening {handed before after : List Handed} (h : InOpeningOrder handed)
    (hdata : handed = before ++ .data :: after) : .header opening true ∈ before := by
  rcases h with hpre | ⟨front, rest, hopening, hpre, -⟩
  · exact (hpre .data (by simp [hdata])).elim
  · rcases List.append_eq_append_iff.mp (hdata.symm.trans hopening) with
      ⟨middle, rfl, hmiddle⟩ | ⟨middle, rfl, hmiddle⟩
    · cases middle with
      | nil => cases hmiddle
      | cons x middle =>
        obtain ⟨rfl, -⟩ := List.cons.inj hmiddle
        exact (hpre .data (by simp)).elim
    · cases middle with
      | nil => cases hmiddle
      | cons x middle =>
        obtain ⟨rfl, -⟩ := List.cons.inj hmiddle
        simp

/-- A downstream opens in order in every run in which the second receive takes
nothing while the opening is in the high priority queue. -/
theorem opens_in_order {streamId : StreamId} {run : List DownstreamAction} {s : Downstream}
    (hempty : Every (downstreamStep streamId) (StillEmpty streamId) {} run)
    (hrun : exec (downstreamStep streamId) {} run = some s) : OpensInOrder s := by
  have h : OpeningInv streamId s :=
    exec_invariant_of_every (openingInv_init streamId)
      (fun _ _ _ h hempty hstep => openingInv_step h hempty hstep) hempty hrun
  exact ⟨fun _ _ hdata => h.stage.ordered.dataAfterOpening hdata, h.stage.ordered.oneFinal, h.called,
    fun n hreset => (h.reset n hreset).2.2⟩

instance StillEmpty.decidable {streamId : StreamId} {s : Downstream} :
    ∀ a, Decidable (StillEmpty streamId s a)
  | .serveLow _ => inferInstanceAs (Decidable (∀ channel ∈ (s.loop.streams streamId).channel,
      channel.low = [] ∨ channel.high = []))
  | .insertNewChannel | .sendReceptionStatus | .openStream | .callback | .callbackReturns _
  | .requestStreamReset | .publish _ _ | .look | .loop _ => .isTrue trivial

/-- The middleware worker is done with the request and the interim header was sent. -/
def admittedRun : List DownstreamAction :=
  [.loop .http3Connected, .insertNewChannel, .sendReceptionStatus, .loop (.serve 0 {}),
    .insertNewChannel]

/-- The opening is refused once while a capsule is published, and the callback
fails after the capsule was sent. -/
def openedBlocked : List DownstreamAction :=
  admittedRun ++ [.openStream, .callback, .publish 0 ⟨0, [1], false⟩,
    .loop (.serve 0 { headers := .error .streamBlocked }), .loop (.serve 0 {}), .look,
    .serveLow { body := .ok 1 }, .callbackReturns false, .requestStreamReset,
    .loop (.resetRequested 0)]

theorem opens_in_order_openedBlocked : ∃ s,
    exec (downstreamStep 0) {} openedBlocked = some s ∧ OpensInOrder s := by
  have hempty : Every (downstreamStep 0) (StillEmpty 0) {} openedBlocked := by decide +kernel
  obtain ⟨s, hs⟩ := Option.isSome_iff_exists.mp
    (by decide +kernel : (exec (downstreamStep 0) {} openedBlocked).isSome)
  exact ⟨s, hs, opens_in_order hempty hs⟩

/-- The opening and a capsule are queued between the two receives of a look. -/
def overtakenOpening : List DownstreamAction :=
  admittedRun ++ [.look, .openStream, .callback, .publish 0 ⟨0, [1], false⟩,
    .serveLow { body := .ok 1 }]

/-- The capsule is then sent before the opening. -/
theorem opening_overtaken : ¬ ∀ run s,
    exec (downstreamStep 0) {} run = some s → OpensInOrder s := by
  intro hall
  have hhanded : ((exec (downstreamStep 0) {} overtakenOpening).any fun s =>
      s.handed = [.header (receptionStatus 0) true, .data]) = true := by decide +kernel
  obtain ⟨s, hs, hhanded⟩ := Option.any_eq_true _ _ |>.mp hhanded
  have hopening := (hall _ s hs).dataAfterOpening [.header (receptionStatus 0) true] []
    (by simpa using hhanded)
  simp [opening, receptionStatus] at hopening

end FacesHttp3.SendLoop
