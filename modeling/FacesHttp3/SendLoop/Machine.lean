import FacesHttp3.Lib.Exec
import FacesHttp3.Lib.Outcome
import FacesHttp3.SendLoop.Client

/-! # The send loop of a connection

The network thread passes over the writable streams of a connection, the chunking
worker cuts bodies, and the response workers and stream sessions queue items. An
action is one of their steps, with every answer of the environment in it: the
streams the transport lists as writable, in whatever order, and what it answers. -/

namespace FacesHttp3.SendLoop
open FacesHttp3.Lib FacesHttp3.Lib.Exec FacesHttp3.Lib.Outcome FacesHttp3.Request

/-- A connection: `channels` counts the channels made for its streams, and a panic
of the network thread is its end. -/
structure State where
  http3Conn : Bool := false
  streams : StreamId → StreamEntries := fun _ => {}
  station : List ChunkableBody := []
  channels : Nat := 0
  panicked : Option Panic := none

inductive Action
  | http3Connected
  | insertNewChannel (streamId : StreamId)
  | sendToHighPriorityQueue (streamId : StreamId) (item : QueuedRequest)
  | send (streamId : StreamId) (sender : ChunkSender) (body : BodyRequest)
  | requestStreamReset (streamId : StreamId)
  | chunk (occupied : Bool)
  | resetRequested (streamId : StreamId)
  | drain (streamId : StreamId) (streamWritable : Except H3Error Bool) (answers : Answers)
  | serve (streamId : StreamId) (answers : Answers)

/-- A body a handler's response is sent with: it knows its sender. -/
def BodyType.attached : BodyType → Bool
  | .data _ sender => sender.isSome
  | .streamData _ _ => false
  | .filePath _ sender => sender.isSome
  | .none => false

/-- What the response workers queue before the other items. -/
def QueuedRequest.produced : QueuedRequest → Bool
  | .header request => request.attachedBody.all BodyType.attached
  | .bodyProgression _ => true
  | .body _ | .streamData _ => false

namespace StreamEntries

def pushHigh (entries : StreamEntries) (item : QueuedRequest) : StreamEntries :=
  { entries with
    channel := entries.channel.map fun channel => { channel with high := channel.high ++ [item] } }

/-- `ChunkSender::send`: a sender into a channel that was removed sends nothing. -/
def pushLow (entries : StreamEntries) (sender : ChunkSender) (item : QueuedRequest) :
    StreamEntries :=
  { entries with
    channel := entries.channel.map fun channel =>
      if channel.sender = sender then { channel with low := channel.low ++ [item] } else channel }

def requestReset (entries : StreamEntries) : StreamEntries :=
  { entries with channel := entries.channel.map fun channel => { channel with reset := true } }

def isResetRequested (entries : StreamEntries) : Bool := entries.channel.any Channel.reset

end StreamEntries

namespace State

def setStream (s : State) (streamId : StreamId) (entries : StreamEntries) : State :=
  { s with streams := Function.update s.streams streamId entries }

/-- The network thread's step on a stream, or its panic. -/
def commit (s : State) (streamId : StreamId) :
    Except Panic (StreamEntries × Option ChunkableBody) → State
  | .ok (entries, chunkable) =>
    { s.setStream streamId entries with station := s.station ++ chunkable.toList }
  | .error panic => { s with panicked := some panic }

/-- The chunking worker takes the next body: it puts it back while the queue is
too long, otherwise queues one chunk of it. -/
def chunk (s : State) (occupied : Bool) : Option State :=
  match s.station with
  | [] => none
  | chunkable :: station =>
    if occupied then some { s with station := station ++ [chunkable] }
    else
      let (item, rest) := chunkable.read
      let entries := (s.streams chunkable.streamId).pushLow chunkable.sender item
      some { s.setStream chunkable.streamId entries with station := station ++ rest.toList }

end State

def step (s : State) : Action → Option State
  | .http3Connected => guarded (s.panicked = none) { s with http3Conn := true }
  | .insertNewChannel streamId =>
    -- requests come from HTTP/3 events
    guarded (s.panicked = none ∧ s.http3Conn) <|
      match (s.streams streamId).channel with
      | some _ => s
      | none =>
        { s.setStream streamId
            { s.streams streamId with channel := some { sender := s.channels } } with
          channels := s.channels + 1 }
  | .sendToHighPriorityQueue streamId item =>
    guarded (s.panicked = none ∧ item.produced) <|
      s.setStream streamId ((s.streams streamId).pushHigh item)
  | .send streamId sender body =>
    guarded (s.panicked = none) <|
      s.setStream streamId ((s.streams streamId).pushLow sender (.streamData body))
  | .requestStreamReset streamId =>
    guarded (s.panicked = none) <| s.setStream streamId (s.streams streamId).requestReset
  | .chunk occupied => if s.panicked = none then s.chunk occupied else none
  | .resetRequested streamId =>
    guarded (s.panicked = none) <|
      if (s.streams streamId).isResetRequested then
        s.setStream streamId (s.streams streamId).resetFailedStream
      else s
  | .drain streamId streamWritable answers =>
    guarded (s.panicked = none) <| s.commit streamId <|
      (drain s.http3Conn (s.streams streamId) streamWritable answers).map fun entries =>
        (entries, none)
  | .serve streamId answers =>
    guarded (s.panicked = none) <| s.commit streamId <|
      serve s.http3Conn streamId (s.streams streamId) answers

/-- One pass of the loop: the requested resets, the rounds on the streams listed as
writable, then one item for each stream listed as writable. -/
def pass (resets : List StreamId) (first : List (StreamId × Except H3Error Bool × Answers))
    (second : List (StreamId × Answers)) : List Action :=
  resets.map .resetRequested ++ first.map (fun round => .drain round.1 round.2.1 round.2.2) ++
    second.map fun round => .serve round.1 round.2

/-! ## What a step does to one stream -/

/-- The bodies of one stream in the chunking station. -/
def State.chunkables (s : State) (streamId : StreamId) : List ChunkableBody :=
  s.station.filter fun chunkable => chunkable.streamId = streamId

/-- Steps that make the queues of a stream or put something into them. -/
def Action.Produces (streamId : StreamId) : Action → Prop
  | .insertNewChannel id => id = streamId
  | .sendToHighPriorityQueue id _ => id = streamId
  | .send id _ _ => id = streamId
  | _ => False

/-- The network thread, the chunking worker and a cancellation on one stream. -/
inductive StreamStep (streamId : StreamId) (s t : State) : Action → Prop
  | elsewhere {a : Action} (entries : t.streams streamId = s.streams streamId)
      (chunkables : t.chunkables streamId = s.chunkables streamId) : StreamStep streamId s t a
  | waited {chunkable : ChunkableBody} {rest : List ChunkableBody}
      (entries : t.streams streamId = s.streams streamId)
      (before : s.chunkables streamId = chunkable :: rest)
      (after : t.chunkables streamId = rest ++ [chunkable]) : StreamStep streamId s t (.chunk true)
  | chunked {chunkable : ChunkableBody} {rest : List ChunkableBody}
      (entries : t.streams streamId =
        (s.streams streamId).pushLow chunkable.sender chunkable.read.1)
      (before : s.chunkables streamId = chunkable :: rest)
      (after : t.chunkables streamId = rest ++ chunkable.read.2.toList) :
      StreamStep streamId s t (.chunk false)
  | resetAsked (entries : t.streams streamId = (s.streams streamId).requestReset)
      (chunkables : t.chunkables streamId = s.chunkables streamId) :
      StreamStep streamId s t (.requestStreamReset streamId)
  | reset (requested : (s.streams streamId).isResetRequested)
      (entries : t.streams streamId = (s.streams streamId).resetFailedStream)
      (chunkables : t.chunkables streamId = s.chunkables streamId) :
      StreamStep streamId s t (.resetRequested streamId)
  | drained {streamWritable : Except H3Error Bool} {answers : Answers}
      (entries : drain s.http3Conn (s.streams streamId) streamWritable answers =
        .ok (t.streams streamId))
      (chunkables : t.chunkables streamId = s.chunkables streamId) :
      StreamStep streamId s t (.drain streamId streamWritable answers)
  | served {answers : Answers} {chunkable : Option ChunkableBody}
      (entries : serve s.http3Conn streamId (s.streams streamId) answers =
        .ok (t.streams streamId, chunkable))
      (chunkables : t.chunkables streamId = s.chunkables streamId ++ chunkable.toList) :
      StreamStep streamId s t (.serve streamId answers)

variable {s t : State} {a : Action} {streamId : StreamId}

theorem setStream_self (entries : StreamEntries) :
    (s.setStream streamId entries).streams streamId = entries := by simp [State.setStream]

theorem setStream_of_ne {id : StreamId} (h : streamId ≠ id) (entries : StreamEntries) :
    (s.setStream id entries).streams streamId = s.streams streamId := by
  simp [State.setStream, h]

theorem sendResponse_streamId {file : FileAnswers} {body : BodyType} {chunkable : ChunkableBody}
    (h : sendResponse streamId file body = .ok (some chunkable)) :
    chunkable.streamId = streamId := by
  cases body with
  | data bytes sender | streamData bytes sender =>
    cases sender with
    | none => cases h
    | some sender =>
      cases h
      rfl
  | filePath path sender =>
    cases sender with
    | none => cases h
    | some sender =>
      cases hc : file.content with
      | none => simp [sendResponse, hc] at h
      | some content =>
        simp only [sendResponse, hc, Option.map_some, Except.ok.injEq, Option.some.injEq] at h
        rw [← h]
        rfl
  | none => cases h

theorem startBody_streamId {entries entries' : StreamEntries} {content : HeaderRequest}
    {bodyLen : Option Nat} {file : FileAnswers} {chunkable : ChunkableBody}
    (h : startBody streamId entries content bodyLen file = .ok (entries', some chunkable)) :
    chunkable.streamId = streamId := by
  unfold startBody at h
  split at h
  · simp only [bind_eq_ok, pure_eq_ok, Prod.mk.injEq] at h
    obtain ⟨_, hsent, -, rfl⟩ := h
    exact sendResponse_streamId hsent
  · cases h
  · cases h

theorem serveHeader_streamId {http3Conn : Bool} {entries entries' : StreamEntries}
    {content : HeaderRequest} {answers : Answers} {chunkable : ChunkableBody}
    (h : serveHeader http3Conn streamId entries content answers =
      .ok (entries', some chunkable)) : chunkable.streamId = streamId := by
  simp only [serveHeader, bind_eq_ok] at h
  obtain ⟨bodyLen, -, h⟩ := h
  cases hp : content.priorityMode <;> simp only [hp, bind_eq_ok] at h
  case sendHeader | sendAdditionnalHeader =>
    obtain ⟨answer, -, h⟩ := h
    cases answer with
    | ok _ => exact startBody_streamId h
    | error e => cases h
  case sendHeader100 =>
    obtain ⟨answer, -, h⟩ := h
    cases answer <;> cases h
  case openStream =>
    obtain ⟨answer, -, h⟩ := h
    cases answer with
    | ok _ => cases h
    | error e => cases e <;> cases h
  case sendWithPriority => cases h

theorem serve_streamId {http3Conn : Bool} {entries entries' : StreamEntries} {answers : Answers}
    {chunkable : ChunkableBody}
    (h : serve http3Conn streamId entries answers = .ok (entries', some chunkable)) :
    chunkable.streamId = streamId := by
  unfold serve at h
  split at h
  · cases h
  · split at h
    case h_5 => exact serveHeader_streamId h
    case h_1 => cases h
    all_goals
      simp only [bind_eq_ok, pure_eq_ok, Prod.mk.injEq] at h
      obtain ⟨_, -, -, hnone⟩ := h
      cases hnone

theorem chunkables_append {station : List ChunkableBody} (chunkable : Option ChunkableBody)
    (h : ∀ c, chunkable = some c → c.streamId = streamId) :
    (station ++ chunkable.toList).filter (fun c => c.streamId = streamId) =
      station.filter (fun c => c.streamId = streamId) ++ chunkable.toList := by
  cases chunkable with
  | none => simp
  | some c => simp [h c rfl]

theorem chunkables_append_of_ne {station : List ChunkableBody} {id : StreamId}
    (hne : streamId ≠ id) (chunkable : Option ChunkableBody)
    (h : ∀ c, chunkable = some c → c.streamId = id) :
    (station ++ chunkable.toList).filter (fun c => c.streamId = streamId) =
      station.filter (fun c => c.streamId = streamId) := by
  cases chunkable with
  | none => simp
  | some c => simp [h c rfl, hne.symm]

theorem read_streamId (chunkable : ChunkableBody) (rest : ChunkableBody)
    (h : chunkable.read.2 = some rest) : rest.streamId = chunkable.streamId := by
  unfold ChunkableBody.read at h
  dsimp only at h
  split at h
  · cases h
  · cases h
    rfl

/-- The step of the chunking worker, seen from one stream. -/
theorem chunk_stream {occupied : Bool} (h : s.chunk occupied = some t) :
    StreamStep streamId s t (.chunk occupied) := by
  unfold State.chunk at h
  cases hst : s.station with
  | nil => simp [hst] at h
  | cons chunkable station =>
    rw [hst] at h
    by_cases hid : chunkable.streamId = streamId
    · have hbefore : s.chunkables streamId =
          chunkable :: station.filter (fun c => c.streamId = streamId) := by
        simp [State.chunkables, hst, hid]
      cases occupied with
      | true =>
        simp only [if_true, Option.some.injEq] at h
        subst h
        exact .waited rfl hbefore (by simp [State.chunkables, hid])
      | false =>
        simp only [Bool.false_eq_true, if_false, Option.some.injEq] at h
        subst h hid
        refine .chunked (setStream_self _) hbefore ?_
        exact chunkables_append _ (read_streamId chunkable)
    · have hne : streamId ≠ chunkable.streamId := fun heq => hid heq.symm
      have hbefore : s.chunkables streamId = station.filter (fun c => c.streamId = streamId) := by
        simp [State.chunkables, hst, hid]
      cases occupied with
      | true =>
        simp only [if_true, Option.some.injEq] at h
        subst h
        exact .elsewhere rfl (by rw [hbefore]; simp [State.chunkables, hid])
      | false =>
        simp only [Bool.false_eq_true, if_false, Option.some.injEq] at h
        subst h
        refine .elsewhere (setStream_of_ne hne _) ?_
        rw [hbefore]
        exact chunkables_append_of_ne hne _ (read_streamId chunkable)

theorem commit_panicked (h : s.panicked = none)
    (result : Except Panic (StreamEntries × Option ChunkableBody)) :
    (s.commit streamId result).panicked = none ↔ ∃ served, result = .ok served := by
  cases result with
  | ok served => simp [State.commit, State.setStream, h]
  | error panic => simp [State.commit]

/-- A panic of the network thread leaves the streams as they are. -/
theorem commit_of_panicked {result : Except Panic (StreamEntries × Option ChunkableBody)}
    (h : s.panicked = none) (hp : (s.commit streamId result).panicked ≠ none) :
    (s.commit streamId result).streams = s.streams ∧
      (s.commit streamId result).station = s.station := by
  cases result with
  | ok served => exact absurd h hp
  | error panic => exact ⟨rfl, rfl⟩

/-- Only the two loops over the writable streams panic. -/
theorem step_of_panicked (h : step s a = some t) (hp : t.panicked ≠ none) :
    t.streams = s.streams ∧ t.station = s.station := by
  cases a with
  | http3Connected | sendToHighPriorityQueue | send | requestStreamReset =>
    obtain ⟨hs, rfl⟩ := guarded_eq_some_iff.mp h
    simp_all [State.setStream]
  | insertNewChannel id =>
    obtain ⟨hs, ht⟩ := guarded_eq_some_iff.mp h
    split at ht <;> subst ht <;> exact absurd hs.1 hp
  | chunk occupied =>
    simp only [step] at h
    split at h
    case isFalse => cases h
    rename_i hs
    unfold State.chunk at h
    split at h
    · cases h
    · split at h <;> cases h <;> exact absurd hs hp
  | resetRequested id =>
    obtain ⟨hs, ht⟩ := guarded_eq_some_iff.mp h
    split at ht <;> subst ht <;> exact absurd hs hp
  | drain id streamWritable answers =>
    obtain ⟨hs, rfl⟩ := guarded_eq_some_iff.mp h
    exact commit_of_panicked hs hp
  | serve id answers =>
    obtain ⟨hs, rfl⟩ := guarded_eq_some_iff.mp h
    exact commit_of_panicked hs hp

/-- A step that does not panic and queues nothing for the stream. -/
theorem step_stream (h : step s a = some t) (hp : t.panicked = none)
    (ha : ¬ a.Produces streamId) : StreamStep streamId s t a := by
  cases a with
  | http3Connected =>
    obtain ⟨-, rfl⟩ := guarded_eq_some_iff.mp h
    exact .elsewhere rfl rfl
  | insertNewChannel id =>
    obtain ⟨-, ht⟩ := guarded_eq_some_iff.mp h
    split at ht <;> subst ht
    · exact .elsewhere rfl rfl
    · exact .elsewhere (setStream_of_ne (fun heq => ha heq.symm) _) rfl
  | sendToHighPriorityQueue id item =>
    obtain ⟨-, rfl⟩ := guarded_eq_some_iff.mp h
    exact .elsewhere (setStream_of_ne (fun heq => ha heq.symm) _) rfl
  | send id sender body =>
    obtain ⟨-, rfl⟩ := guarded_eq_some_iff.mp h
    exact .elsewhere (setStream_of_ne (fun heq => ha heq.symm) _) rfl
  | requestStreamReset id =>
    obtain ⟨-, rfl⟩ := guarded_eq_some_iff.mp h
    by_cases heq : streamId = id
    · subst heq
      exact .resetAsked (setStream_self _) rfl
    · exact .elsewhere (setStream_of_ne heq _) rfl
  | chunk occupied =>
    simp only [step] at h
    split at h
    · exact chunk_stream h
    · cases h
  | resetRequested id =>
    obtain ⟨-, ht⟩ := guarded_eq_some_iff.mp h
    split at ht <;> subst ht
    · rename_i hreq
      by_cases heq : streamId = id
      · subst heq
        exact .reset hreq (setStream_self _) rfl
      · exact .elsewhere (setStream_of_ne heq _) rfl
    · exact .elsewhere rfl rfl
  | drain id streamWritable answers =>
    obtain ⟨hs, rfl⟩ := guarded_eq_some_iff.mp h
    cases hd : drain s.http3Conn (s.streams id) streamWritable answers with
    | error panic => simp [State.commit, hd, Except.map] at hp
    | ok entries =>
      by_cases heq : streamId = id
      · subst heq
        refine .drained ?_ ?_
        · simp [State.commit, hd, Except.map, setStream_self]
        · simp [State.commit, Except.map, State.chunkables, State.setStream]
      · refine .elsewhere ?_ ?_
        · simp [State.commit, Except.map, setStream_of_ne heq]
        · simp [State.commit, Except.map, State.chunkables, State.setStream]
  | serve id answers =>
    obtain ⟨hs, rfl⟩ := guarded_eq_some_iff.mp h
    cases hd : serve s.http3Conn id (s.streams id) answers with
    | error panic => simp [State.commit, hd] at hp
    | ok served =>
      obtain ⟨entries, chunkable⟩ := served
      have hid : ∀ c, chunkable = some c → c.streamId = id := by
        rintro c rfl
        exact serve_streamId hd
      by_cases heq : streamId = id
      · subst heq
        refine @StreamStep.served _ _ _ _ chunkable ?_ ?_
        · simp [State.commit, hd, setStream_self]
        · exact chunkables_append chunkable hid
      · refine .elsewhere ?_ ?_
        · simp [State.commit, setStream_of_ne heq]
        · exact chunkables_append_of_ne heq chunkable hid

/-! ## What a step writes to a stream -/

/-- The entries a step leaves for a stream it writes to. -/
inductive Writes (s : State) (streamId : StreamId) : Action → StreamEntries → Prop
  | insertNewChannel (connected : s.http3Conn = true) :
      Writes s streamId (.insertNewChannel streamId)
        { s.streams streamId with channel := some { sender := s.channels } }
  | pushHigh {item : QueuedRequest} (produced : item.produced = true) :
      Writes s streamId (.sendToHighPriorityQueue streamId item)
        ((s.streams streamId).pushHigh item)
  | pushStream {sender : ChunkSender} {body : BodyRequest} :
      Writes s streamId (.send streamId sender body)
        ((s.streams streamId).pushLow sender (.streamData body))
  | pushChunk {sender : ChunkSender} {body : BodyRequest} :
      Writes s streamId (.chunk false) ((s.streams streamId).pushLow sender (.body body))
  | resetAsked :
      Writes s streamId (.requestStreamReset streamId) (s.streams streamId).requestReset
  | reset : Writes s streamId (.resetRequested streamId) (s.streams streamId).resetFailedStream
  | drained {streamWritable : Except H3Error Bool} {answers : Answers} {entries : StreamEntries}
      (drained : drain s.http3Conn (s.streams streamId) streamWritable answers = .ok entries) :
      Writes s streamId (.drain streamId streamWritable answers) entries
  | served {answers : Answers} {entries : StreamEntries} {chunkable : Option ChunkableBody}
      (served : serve s.http3Conn streamId (s.streams streamId) answers =
        .ok (entries, chunkable)) :
      Writes s streamId (.serve streamId answers) entries

theorem step_writes (h : step s a = some t) (streamId : StreamId) :
    t.streams streamId = s.streams streamId ∨ Writes s streamId a (t.streams streamId) := by
  by_cases hp : t.panicked = none
  case neg => exact .inl (by rw [(step_of_panicked h hp).1])
  by_cases ha : a.Produces streamId
  case neg =>
    cases step_stream h hp ha with
    | elsewhere entries => exact .inl entries
    | waited entries => exact .inl entries
    | chunked entries => exact .inr (entries ▸ .pushChunk)
    | resetAsked entries => exact .inr (entries ▸ .resetAsked)
    | reset _ entries => exact .inr (entries ▸ .reset)
    | drained entries => exact .inr (.drained entries)
    | served entries => exact .inr (.served entries)
  cases a with
  | insertNewChannel id =>
    obtain rfl : id = streamId := ha
    obtain ⟨⟨-, hconnected⟩, ht⟩ := guarded_eq_some_iff.mp h
    split at ht <;> subst ht
    · exact .inl rfl
    · right
      rw [show State.streams _ id = _ from setStream_self _]
      exact .insertNewChannel hconnected
  | sendToHighPriorityQueue id item =>
    obtain rfl : id = streamId := ha
    obtain ⟨⟨-, hproduced⟩, rfl⟩ := guarded_eq_some_iff.mp h
    right
    rw [setStream_self]
    exact .pushHigh hproduced
  | send id sender body =>
    obtain rfl : id = streamId := ha
    obtain ⟨-, rfl⟩ := guarded_eq_some_iff.mp h
    right
    rw [setStream_self]
    exact .pushStream
  | http3Connected | requestStreamReset | chunk | resetRequested | drain | serve => exact ha.elim

@[simp] theorem commit_http3Conn (result : Except Panic (StreamEntries × Option ChunkableBody)) :
    (s.commit streamId result).http3Conn = s.http3Conn := by
  cases result <;> rfl

/-- The connection stays established. -/
theorem step_http3Conn (h : step s a = some t) (hs : s.http3Conn = true) : t.http3Conn = true := by
  cases a with
  | http3Connected | sendToHighPriorityQueue | send | requestStreamReset =>
    obtain ⟨-, rfl⟩ := guarded_eq_some_iff.mp h
    first | rfl | exact hs
  | insertNewChannel | resetRequested =>
    obtain ⟨-, ht⟩ := guarded_eq_some_iff.mp h
    split at ht <;> subst ht <;> exact hs
  | chunk occupied =>
    simp only [step] at h
    split at h
    case isFalse => cases h
    unfold State.chunk at h
    split at h
    · cases h
    · split at h <;> cases h <;> exact hs
  | drain | serve =>
    obtain ⟨-, rfl⟩ := guarded_eq_some_iff.mp h
    rwa [commit_http3Conn]

end FacesHttp3.SendLoop
