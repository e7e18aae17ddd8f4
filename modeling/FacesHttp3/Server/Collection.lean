import FacesHttp3.Dispatch.Laws
import FacesHttp3.Server.Entries
import FacesHttp3.Server.Network
import FacesHttp3.Server.Rejections

/-! # The collection of a closed connection

When a connection is closed the network thread removes it from its clients, and
its entries from the disposition table, the request table, the in-flight paths and
the sessions of the downstreams, in this order. The stream queues are not touched,
and nothing keeps the other threads from inserting afterwards: a queue goes away
only behind a body that was totally written, or with a stream that is reset. -/

namespace FacesHttp3.Server
open FacesHttp3.Lib FacesHttp3.Lib.Exec FacesHttp3.Request FacesHttp3.Router
open FacesHttp3.RequestsTable FacesHttp3.InFlight

/-- The sessions of a downstream, as the application keeps them; `connections` are
the bound connections, with their streams. Removing by connection removes all of
its bindings and no other. -/
structure UserSessions (T U : Type) where
  new : T
  registerSessions : T → U → Bytes × Nat → T
  removeSessionsByConnection : T → Bytes → T
  getAllConnections : T → List (Bytes × Nat)
  getAllConnections_new : getAllConnections new = []
  mem_registerSessions : ∀ sessions user ids bound,
    bound ∈ getAllConnections (registerSessions sessions user ids) →
      bound = ids ∨ bound ∈ getAllConnections sessions
  mem_removeSessionsByConnection : ∀ sessions scid bound,
    bound ∈ getAllConnections (removeSessionsByConnection sessions scid) ↔
      bound ∈ getAllConnections sessions ∧ bound.1 ≠ scid

/-- How a connection's trace id is made of its source id. -/
structure TraceIds where
  traceId : Bytes → ConnId
  injective : Function.Injective traceId

/-- What happens to the queue of a stream: it is inserted, removed behind a body that was
totally written, or removed by `reset_failed_stream`. -/
inductive QueueEvent
  | inserted
  | bodyWritten
  | reset
  deriving DecidableEq

/-- The server with the sessions of its downstreams, by path, and the clients the
network thread has collected or is collecting. `bodies` are the streams on which a
response with a body was queued by a response worker. No thread reads `queueEvents`,
what happened to the queues, the newest first. -/
structure Registries (M H L C W ω T : Type) where
  server : State M H L C W ω
  sessions : String → T
  collecting : Option ConnId := none
  collected : Finset ConnId := ∅
  bodies : Finset QueueKey := ∅
  queueEvents : List (QueueKey × QueueEvent) := []

inductive RegistryAction (L W ω U : Type)
  | server (action : Action L W ω)
  | attachBody (worker : ω)
  | bodyWritten (key : QueueKey)
  | resetFailedStream (key : QueueKey)
  | registerSession (worker : ω) (path : String) (user : U)
  | cleanClosedConnexions (scid : Bytes)

variable {M H L C W ω T U : Type}

/-- The connection has its client, and the network thread is not collecting. -/
def Registries.Live (s : Registries M H L C W ω T) (conn : ConnId) : Prop :=
  s.collecting = none ∧ conn ∉ s.collected

instance (s : Registries M H L C W ω T) (conn : ConnId) : Decidable (s.Live conn) := by
  unfold Registries.Live; infer_instance

/-- The network thread has begun to collect the connection. -/
def Registries.Gone (s : Registries M H L C W ω T) (conn : ConnId) : Prop :=
  s.collecting = some conn ∨ conn ∈ s.collected

/-- Events are those of a client, under its own ids, and body packets come after the
headers and before the end of their request. Queues are removed by the steps below. -/
def Registries.Allowed (ids : TraceIds) (s : Registries M H L C W ω T) : Action L W ω → Prop
  | .headers message => s.Live message.id.1 ∧ message.id.1 = ids.traceId message.scid
  | .dataCheck id =>
    s.Live id.1 ∧ s.server.shared.begun id = true ∧ s.server.shared.ended id = false
  | .finished id scid | .reset id scid => s.Live id.1 ∧ id.1 = ids.traceId scid
  | .closeConnection conn scid => s.Live conn ∧ conn = ids.traceId scid
  | .removeStream _ => False
  | .buildRouteEvent w scid =>
    match s.server.shared.workers w with
    | .taken id _ _ => id.1 = ids.traceId scid
    | _ => True
  | _ => True

instance (ids : TraceIds) (s : Registries M H L C W ω T) (a : Action L W ω) :
    Decidable (s.Allowed ids a) := by
  unfold Registries.Allowed
  split <;> first | infer_instance | (split <;> infer_instance)

/-- A response with a body was queued on the stream, by a response worker or by the
thread that answers rejections. -/
def Registries.HasBody (s : Registries M H L C W ω T) (key : QueueKey) : Prop :=
  key ∈ s.bodies ∨ ∃ error ∈ s.server.errors, error.2.1 = key ∧ error.2.2.body.isSome = true

instance (s : Registries M H L C W ω T) (key : QueueKey) : Decidable (s.HasBody key) := by
  unfold Registries.HasBody; infer_instance

/-- The stream was opened for a downstream, whose opening may fail and whose callback may
ask for the reset. -/
def Registries.Opened (s : Registries M H L C W ω T) (key : QueueKey) : Bool :=
  s.server.invocations.any fun
    | .downStream event _ => (event.id.2, event.scid) = key
    | .handler _ _ => false

variable [DecidableEq ω]

/-- The network thread removes the queue of a stream. -/
def Registries.removeStream (config : ServerConfig) (form404 : Option ErrorForm)
    (manager : RouteManager M H L C) (ids : TraceIds) (s : Registries M H L C W ω T) (key : QueueKey)
    (event : QueueEvent) : Option (Registries M H L C W ω T) :=
  if s.Live (ids.traceId key.2) then
    (step config form404 manager s.server (.removeStream key)).map fun server => { s with
      server
      queueEvents := (key, event) :: s.queueEvents }
  else none

/-- A step of the server, with the beginning of a collection; a response with a body; the
removals of a queue; a callback that binds a user to the stream of its request; and
the end of a collection. -/
def registryStep (config : ServerConfig) (form404 : Option ErrorForm) (manager : RouteManager M H L C)
    (ids : TraceIds) (users : UserSessions T U) (s : Registries M H L C W ω T) :
    RegistryAction L W ω U → Option (Registries M H L C W ω T)
  | .server action =>
    if s.Allowed ids action then
      (step config form404 manager s.server action).map fun server => { s with
        server
        collecting := match action with
          | .closeConnection conn _ => some conn
          | _ => s.collecting
        queueEvents :=
          (insertedQueue s.server action).toList.map (fun key => (key, .inserted)) ++ s.queueEvents }
    else none
  | .attachBody w =>
    match s.server.responders w with
    | some { event := some event, called := true, again := false, .. } =>
      let key := (event.id.2, event.scid)
      guarded ((manager.getRoutesFromPathAndMethod event.path event.method).isSome = true ∧
        key ∈ s.server.queues) { s with bodies := insert key s.bodies }
    | _ => none
  | .bodyWritten key =>
    if s.HasBody key then s.removeStream config form404 manager ids key .bodyWritten else none
  | .resetFailedStream key =>
    if s.Opened key then s.removeStream config form404 manager ids key .reset else none
  | .registerSession w path user =>
    match s.server.responders w, manager.getStreamFromPath path with
    | some { event := some event, called := true, .. }, some _ => some { s with
        sessions := Function.update s.sessions path
          (users.registerSessions (s.sessions path) user (event.scid, event.id.2)) }
    | _, _ => none
  | .cleanClosedConnexions scid =>
    guarded (s.collecting = some (ids.traceId scid) ∧ s.server.shared.net = .idle) { s with
      sessions := fun path => users.removeSessionsByConnection (s.sessions path) scid
      collecting := none
      collected := insert (ids.traceId scid) s.collected }

def registryInit (manager : RouteManager M H L C) (users : UserSessions T U) :
    Registries M H L C W ω T where
  server := init manager
  sessions _ := users.new

/-! ## The property -/

omit [DecidableEq ω] in
/-- No job, verdict, injection, registration and callback of the connection is in flight. -/
structure Settled (s : State M H L C W ω) (conn : ConnId) : Prop where
  jobs : ∀ number pc, s.jobs number = some pc → pc.message.id.1 ≠ conn
  work : ∀ id : ReqId, id.1 = conn → Dispatch.NoWork s.shared id
  injections : ∀ id ∈ s.shared.injections, id.1 ≠ conn

omit [DecidableEq ω] in
/-- No shared registry has an entry of the connection. -/
structure NoEntry (ids : TraceIds) (users : UserSessions T U) (s : Registries M H L C W ω T)
    (conn : ConnId) : Prop where
  signal : ∀ id : ReqId, id.1 = conn → s.server.shared.signal id = none
  table : ∀ id : ReqId, id.1 = conn → s.server.shared.table id = none
  inFlight : ∀ key ∈ s.server.verifier.streamMap, ids.traceId key.connId ≠ conn
  queues : ∀ key ∈ s.server.queues, ids.traceId key.2 ≠ conn
  sessions : ∀ path, ∀ bound ∈ users.getAllConnections (s.sessions path), ids.traceId bound.1 ≠ conn

/-- The entries of the other connections are what they were. -/
structure OthersKept (ids : TraceIds) (users : UserSessions T U) (conn : ConnId)
    (s t : Registries M H L C W ω T) : Prop where
  signal : ∀ id : ReqId, id.1 ≠ conn → t.server.shared.signal id = s.server.shared.signal id
  table : ∀ id : ReqId, id.1 ≠ conn → t.server.shared.table id = s.server.shared.table id
  inFlight : ∀ key, ids.traceId key.connId ≠ conn →
    (key ∈ t.server.verifier.streamMap ↔ key ∈ s.server.verifier.streamMap)
  queues : t.server.queues = s.server.queues
  sessions : ∀ path bound, ids.traceId bound.1 ≠ conn →
    (bound ∈ users.getAllConnections (t.sessions path) ↔
      bound ∈ users.getAllConnections (s.sessions path))

/-- The connection a step collects. -/
def Registries.collects (s : Registries M H L C W ω T) : RegistryAction L W ω U → Option ConnId
  | .server (.closeConnection conn _) => some conn
  | .server (.protocol .discard) | .cleanClosedConnexions _ => s.collecting
  | _ => none

/-- The section has still to make the queue of its stream. -/
def JobPc.Inserts : JobPc M → Bool
  | .reported _ | .answering _ _ | .sending _ _ => false
  | _ => true

/-- When the collection of a connection ends, every queue that was inserted for it was
removed since, behind a body that was totally written or by a reset; no section of it
has still to make a queue, and no response worker answers a request of it. -/
def RespectsCollection (ids : TraceIds) (s : Registries M H L C W ω T) :
    RegistryAction L W ω U → Prop
  | .cleanClosedConnexions scid =>
    (∀ entry ∈ s.queueEvents, entry.1.2 = scid →
      s.queueEvents.lookup entry.1 = some .bodyWritten ∨ s.queueEvents.lookup entry.1 = some .reset) ∧
    (∀ number pc, s.server.jobs number = some pc → pc.Inserts = true →
      pc.message.id.1 ≠ ids.traceId scid) ∧
    ∀ w id, Answers (s.server.shared.workers w) = some id → id.1 ≠ ids.traceId scid
  | _ => True

/-! ## The invariant -/

section Steps

variable {config : ServerConfig} {form404 : Option ErrorForm} {manager : RouteManager M H L C}
  {ids : TraceIds} {users : UserSessions T U} {s t : Registries M H L C W ω T}
  {a : RegistryAction L W ω U} {conn : ConnId}

omit [DecidableEq ω] in
theorem JobStep.keeps {form404 : Option ErrorForm} {pc next : JobPc M} {sign : Sign}
    (h : JobStep manager form404 pc sign (some next)) :
    pc.message = next.message ∧ (next.Inserts = true → pc.Inserts = true) := by
  cases h with
  | route work => exact ⟨(headerWork_execute work).1.symm, fun _ => rfl⟩
  | senders => exact ⟨rfl, fun h => h⟩
  | _ => exact ⟨rfl, fun _ => rfl⟩

/-- A section was there before, or it is the one that was being processed. -/
theorem job_since {s t : State M H L C W ω} {a : Action L W ω} {number : Nat} {pc : JobPc M}
    (h : step config form404 manager s a = some t) (hpc : t.jobs number = some pc) :
    (∃ before, s.jobs number = some before ∧ before.message = pc.message ∧
      (pc.Inserts = true → before.Inserts = true)) ∨ s.network = .processing pc.message := by
  cases step_section h number with
  | elsewhere _ jobs => exact .inl ⟨pc, jobs ▸ hpc, rfl, fun h => h⟩
  | admitted _ network _ _ jobs =>
    cases jobs.symm.trans hpc
    exact .inr network
  | own _ before step =>
    rw [hpc] at step
    exact .inl ⟨_, before, step.keeps⟩

omit [DecidableEq ω] in
/-- Only a section and a response worker that answers a request insert a queue. -/
theorem insertedQueue_cases {s : State M H L C W ω} {a : Action L W ω} {key : QueueKey}
    (h : insertedQueue s a = some key) :
    (∃ number pc, s.jobs number = some pc ∧ pc.Inserts = true ∧ pc.message.queueKey = key) ∨
      ∃ w id responder, s.shared.workers w = .responding id ∧ s.responders w = some responder ∧
        (id.2, responder.scid) = key := by
  cases a with
  | sendReceptionStatus number | insertErrorQueue number =>
    simp only [insertedQueue] at h
    split at h
    · rename_i hpc
      exact .inl ⟨number, _, hpc, rfl, Option.some.inj h⟩
    · cases h
  | insertQueue w =>
    simp only [insertedQueue] at h
    split at h
    · rename_i id responder hworker hresponder
      exact .inr ⟨w, id, responder, hworker, hresponder, Option.some.inj h⟩
    · cases h
  | _ => cases h

/-- The connection of a section and of a responder is the one of its source id; a section
that has a queue to make, and a request that is answered, are of no collected one. -/
structure CollectionInv (ids : TraceIds) (users : UserSessions T U) (s : Registries M H L C W ω T) :
    Prop where
  reach : ∃ actions, exec Dispatch.step {} actions = some s.server.shared
  packet : PacketInv s.server
  prepared : ResponderInv s.server
  signal : ∀ id : ReqId, s.Gone id.1 → s.server.shared.signal id = none
  inFlight : ∀ key ∈ s.server.verifier.streamMap, ¬ s.Gone (ids.traceId key.connId)
  net : ∀ id, s.server.shared.net.Cancels id → id.1 ∉ s.collected ∧
    ∀ conn, s.collecting = some conn → id.1 = conn
  processing : ∀ message, s.server.network = .processing message →
    message.id.1 = ids.traceId message.scid ∧ ¬ s.Gone message.id.1
  jobs : ∀ number pc, s.server.jobs number = some pc →
    pc.message.id.1 = ids.traceId pc.message.scid ∧ (pc.Inserts = true → pc.message.id.1 ∉ s.collected)
  answers : ∀ w id, Answers (s.server.shared.workers w) = some id → id.1 ∉ s.collected
  responders : ∀ w responder id, s.server.responders w = some responder →
    Prepares (s.server.shared.workers w) id → id.1 = ids.traceId responder.scid ∧
      ∀ event, responder.event = some event → event.scid = responder.scid
  events : ∀ key ∈ s.server.queues, s.queueEvents.lookup key = some .inserted
  queues : ∀ key ∈ s.server.queues, ids.traceId key.2 ∉ s.collected
  sessions : ∀ path, ∀ bound ∈ users.getAllConnections (s.sessions path),
    ids.traceId bound.1 ∉ s.collected

theorem collectionInv_init :
    CollectionInv ids users (registryInit manager users : Registries M H L C W ω T) where
  reach := ⟨[], rfl⟩
  packet := packetInv_init
  prepared _ _ h := by cases h
  signal _ _ := rfl
  inFlight key hkey := by simp [registryInit, init, InFlightStreamsPathVerifier.ofManager] at hkey
  net _ h := h.elim
  processing _ h := by cases h
  jobs _ _ h := by cases h
  answers _ _ h := by cases h
  responders _ _ _ h := by cases h
  events key hkey := by simp [registryInit, init] at hkey
  queues key hkey := by simp [registryInit, init] at hkey
  sessions path bound hbound := by simp [registryInit, users.getAllConnections_new] at hbound

/-- A step of the server. -/
theorem server_step {action : Action L W ω}
    (h : registryStep config form404 manager ids users s (.server action) = some t) :
    s.Allowed ids action ∧ step config form404 manager s.server action = some t.server ∧
      t.sessions = s.sessions ∧ t.collected = s.collected ∧
      t.queueEvents =
        (insertedQueue s.server action).toList.map (fun key => (key, .inserted)) ++ s.queueEvents ∧
      ((t.collecting = s.collecting ∧ ∀ conn scid, action ≠ .closeConnection conn scid) ∨
        ∃ conn scid, action = .closeConnection conn scid ∧ t.collecting = some conn) := by
  simp only [registryStep] at h
  split at h
  · rename_i hallowed
    obtain ⟨server, hserver, rfl⟩ := Option.map_eq_some_iff.mp h
    refine ⟨hallowed, hserver, rfl, rfl, rfl, ?_⟩
    cases action with
    | closeConnection conn scid => exact .inr ⟨conn, scid, rfl, rfl⟩
    | _ => exact .inl ⟨rfl, nofun⟩
  · cases h

/-- The close of a connection: its cancellation leaves the disposition table, and its
paths are forgotten. -/
structure Closes (s t : State M H L C W ω) (conn : ConnId) (scid : Bytes) : Prop where
  network : s.network = .idle
  before : s.shared.net = .idle
  after : t.shared.net = .discardingConnection conn
  signal : t.shared.signal = s.shared.signal.retain fun id => id.1 != conn
  table : t.shared.table = s.shared.table
  verifier : t.verifier = s.verifier.removeConnection scid
  queues : t.queues = s.queues

theorem closes_of_step {s t : State M H L C W ω} {scid : Bytes}
    (h : step config form404 manager s (.closeConnection conn scid) = some t) :
    Closes s t conn scid := by
  cases step_transition h with
  | connectionClosed idle protocol =>
    obtain ⟨hidle, rfl⟩ := guarded_eq_some_iff.mp protocol
    exact ⟨idle, hidle, rfl, rfl, rfl, rfl, rfl⟩

omit [DecidableEq ω] in
theorem Registries.Live.not_gone (h : s.Live conn) : ¬ s.Gone conn := by
  rintro (hgone | hgone)
  · rw [h.1] at hgone
    cases hgone
  · exact h.2 hgone

/-- A worker that answers a request took it while it had its entry. -/
theorem CollectionInv.answers_step {action : Action L W ω} (h : CollectionInv ids users s)
    {server : State M H L C W ω} (hserver : step config form404 manager s.server action = some server)
    {w : ω} {id : ReqId} (hanswers : Answers (server.shared.workers w) = some id) :
    id.1 ∉ s.collected := by
  rcases answers_since hserver hanswers with hbefore | ⟨born, -, -, hready⟩
  · exact h.answers w id hbefore
  · intro hgone
    cases (h.signal id (.inr hgone)).symm.trans hready

theorem CollectionInv.responders_step {action : Action L W ω} (h : CollectionInv ids users s)
    (hallowed : s.Allowed ids action) {server : State M H L C W ω}
    (hserver : step config form404 manager s.server action = some server) {w : ω} {responder : Responder W}
    {id : ReqId} (hresponder : server.responders w = some responder)
    (hprepares : Prepares (server.shared.workers w) id) :
    id.1 = ids.traceId responder.scid ∧
      ∀ event, responder.event = some event → event.scid = responder.scid := by
  rcases responder_since hserver hresponder with
    ⟨hend, before, hbefore, hscid, hevent⟩ | ⟨scid, i, born, taken, rfl, hworker, rfl⟩
  · obtain ⟨i, hold, -⟩ := h.prepared w before hbefore
    obtain rfl : i = id := (prepares_server hserver hold hend).unique hprepares
    rw [← hscid, ← hevent]
    exact h.responders w before i hbefore hold
  · obtain rfl : i = id := (built_worker hworker hserver).unique hprepares
    simp only [Registries.Allowed, hworker] at hallowed
    exact ⟨hallowed, fun event hevent => (ofEvent_ids hevent).2⟩

/-- A queue that is inserted is of a connection that was not collected. -/
theorem CollectionInv.inserted {action : Action L W ω} (h : CollectionInv ids users s) {key : QueueKey}
    (hinserted : insertedQueue s.server action = some key) : ids.traceId key.2 ∉ s.collected := by
  rcases insertedQueue_cases hinserted with
    ⟨number, pc, hpc, hinserts, rfl⟩ | ⟨w, id, responder, hworker, hresponder, rfl⟩
  · obtain ⟨hconn, hopen⟩ := h.jobs number pc hpc
    rw [HeaderMessage.queueKey, ← hconn]
    exact hopen hinserts
  · rw [← (h.responders w responder id hresponder (.inr hworker)).1]
    exact h.answers w id (by rw [hworker]; rfl)

/-- A connection is closed by its own step. -/
theorem gone_step {action : Action L W ω}
    (hstep : registryStep config form404 manager ids users s (.server action) = some t)
    (hgone : t.Gone conn) : s.Gone conn ∨ ∃ scid, action = .closeConnection conn scid := by
  obtain ⟨-, -, -, hcollected, -, hcollecting⟩ := server_step hstep
  rcases hgone with hgone | hgone
  · rcases hcollecting with ⟨hsame, -⟩ | ⟨conn', scid, heq, hnew⟩
    · exact .inl (.inl (hsame ▸ hgone))
    · cases hgone.symm.trans hnew
      exact .inr ⟨scid, heq⟩
  · exact .inl (.inr (hcollected ▸ hgone))

/-- No slot is created for a connection that is gone. -/
theorem CollectionInv.signal_server {action : Action L W ω} (h : CollectionInv ids users s)
    (hstep : registryStep config form404 manager ids users s (.server action) = some t) {id : ReqId}
    (hid : t.Gone id.1) : t.server.shared.signal id = none := by
  obtain ⟨hallowed, hserver, -⟩ := server_step hstep
  by_contra hne
  rcases signal_step hserver id (Option.isSome_iff_ne_none.mpr hne) with
    ⟨hold, hopen⟩ | ⟨message, rfl, rfl⟩
  · rcases gone_step hstep hid with hbefore | ⟨scid, heq⟩
    · rw [h.signal id hbefore] at hold
      cases hold
    · exact hopen scid heq
  · rcases gone_step hstep hid with hbefore | ⟨scid, heq⟩
    · exact hallowed.1.not_gone hbefore
    · cases heq

/-- No path is recorded for a connection that is gone. -/
theorem CollectionInv.inFlight_server {action : Action L W ω} (h : CollectionInv ids users s)
    (hstep : registryStep config form404 manager ids users s (.server action) = some t)
    {key : ConnStreamK} (hkey : key ∈ t.server.verifier.streamMap) : ¬ t.Gone (ids.traceId key.connId) := by
  obtain ⟨hallowed, hserver, -⟩ := server_step hstep
  intro hid
  rcases verifier_step hserver key hkey with ⟨hold, hopen⟩ | ⟨message, rfl, rfl⟩
  · rcases gone_step hstep hid with hbefore | ⟨scid, heq⟩
    · exact h.inFlight key hold hbefore
    · subst heq
      exact hopen _ _ rfl (ids.injective hallowed.2)
  · rcases gone_step hstep hid with hbefore | ⟨scid, heq⟩
    · rw [← hallowed.2] at hbefore
      exact hallowed.1.not_gone hbefore
    · cases heq

/-- The network thread cancels requests of the connection it collects, or of a live one. -/
theorem CollectionInv.net_server {action : Action L W ω} (h : CollectionInv ids users s)
    (hstep : registryStep config form404 manager ids users s (.server action) = some t) {id : ReqId}
    (hcancels : t.server.shared.net.Cancels id) :
    id.1 ∉ t.collected ∧ ∀ conn, t.collecting = some conn → id.1 = conn := by
  obtain ⟨hallowed, hserver, -, hcollected, -, hcollecting⟩ := server_step hstep
  have hnew : action.MayCancel id → s.Live id.1 := by
    intro hmay
    cases action with
    | headers message =>
      cases hmay
      exact hallowed.1
    | finished i scid | reset i scid =>
      cases hmay
      exact hallowed.1
    | closeConnection conn scid =>
      cases hmay
      exact hallowed.1
    | _ => exact hmay.elim
  rw [hcollected]
  rcases hcollecting with ⟨hsame, hopen⟩ | ⟨conn, scid, rfl, hnow⟩
  · rw [hsame]
    rcases cancels_step hserver id hcancels with hold | hmay
    · exact h.net id hold
    · refine ⟨(hnew hmay).2, fun conn hconn => ?_⟩
      cases (hnew hmay).1.symm.trans hconn
  · have hcloses := closes_of_step hserver
    rw [hcloses.after] at hcancels
    obtain rfl : conn = id.1 := hcancels
    refine ⟨hallowed.1.2, fun conn' hconn' => ?_⟩
    cases hnow.symm.trans hconn'
    rfl

/-- A section is processed for a connection that is there. -/
theorem CollectionInv.processing_server {action : Action L W ω} (h : CollectionInv ids users s)
    (hstep : registryStep config form404 manager ids users s (.server action) = some t)
    {message : HeaderMessage} (hm : t.server.network = .processing message) :
    message.id.1 = ids.traceId message.scid ∧ ¬ t.Gone message.id.1 := by
  obtain ⟨hallowed, hserver, -⟩ := server_step hstep
  -- a section that is being processed keeps its connection from being closed
  have hkept : s.server.network = .processing message →
      (∀ scid, action ≠ .closeConnection message.id.1 scid) →
      message.id.1 = ids.traceId message.scid ∧ ¬ t.Gone message.id.1 := by
    intro hold hopen
    refine ⟨(h.processing message hold).1, fun hnow => ?_⟩
    rcases gone_step hstep hnow with hbefore | ⟨scid, heq⟩
    · exact (h.processing message hold).2 hbefore
    · exact hopen scid heq
  cases network_step hserver with
  | background same =>
    refine hkept (same.network ▸ hm) ?_
    rintro scid rfl
    cases (same.network.trans (closes_of_step hserver).network).symm.trans hm
  | idle network => cases network.symm.trans hm
  | processing action network =>
    cases network.symm.trans hm
    subst action
    refine ⟨hallowed.2, fun hnow => ?_⟩
    rcases gone_step hstep hnow with hbefore | ⟨scid, heq⟩
    · exact hallowed.1.not_gone hbefore
    · cases heq
  | packet _ _ network => rcases network with network | network <;> cases network.symm.trans hm
  | entered _ network => cases network.symm.trans hm
  | discarded _ network =>
    refine hkept (network ▸ hm) ?_
    rintro scid rfl
    cases (network.trans (closes_of_step hserver).network).symm.trans hm

/-- The last event of a queue that stands is its insertion. -/
theorem CollectionInv.events_server {action : Action L W ω} (h : CollectionInv ids users s)
    (hstep : registryStep config form404 manager ids users s (.server action) = some t)
    {key : QueueKey} (hkey : key ∈ t.server.queues) : t.queueEvents.lookup key = some .inserted := by
  obtain ⟨-, hserver, -, -, hevents, -⟩ := server_step hstep
  rw [hevents]
  cases hinserted : insertedQueue s.server action with
  | none =>
    rcases queues_new hserver key hkey with hold | hnew
    · exact h.events key hold
    · cases hinserted.symm.trans hnew
  | some new =>
    simp only [Option.toList_some, List.map_cons, List.map_nil, List.cons_append, List.nil_append,
      List.lookup_cons]
    split
    · rfl
    · rename_i hne
      rcases queues_new hserver key hkey with hold | hnew
      · exact h.events key hold
      · cases hinserted.symm.trans hnew
        simp at hne

theorem CollectionInv.server {action : Action L W ω} (h : CollectionInv ids users s)
    (hstep : registryStep config form404 manager ids users s (.server action) = some t) :
    CollectionInv ids users t := by
  obtain ⟨hallowed, hserver, hsessions, hcollected, -, -⟩ := server_step hstep
  constructor
  case reach =>
    obtain ⟨actions, hactions⟩ := h.reach
    exact protocol_step h.packet hactions hserver
  case packet =>
    refine packetInv_step h.packet (fun id heq => ?_) hserver
    subst heq
    exact hallowed.2
  case prepared => exact responderInv_step h.prepared hserver
  case signal => exact fun id hid => h.signal_server hstep hid
  case inFlight => exact fun key hkey => h.inFlight_server hstep hkey
  case net => exact fun id hcancels => h.net_server hstep hcancels
  case processing => exact fun message hm => h.processing_server hstep hm
  case events => exact fun key hkey => h.events_server hstep hkey
  case jobs =>
    intro number pc hpc
    rw [hcollected]
    rcases job_since hserver hpc with ⟨before, hbefore, hmessage, hinserts⟩ | hprocessing
    · obtain ⟨hconn, hopen⟩ := h.jobs number before hbefore
      rw [hmessage] at hconn hopen
      exact ⟨hconn, fun hnow => hopen (hinserts hnow)⟩
    · obtain ⟨hconn, hopen⟩ := h.processing pc.message hprocessing
      exact ⟨hconn, fun _ hnow => hopen (.inr hnow)⟩
  case answers =>
    intro w id hanswers
    rw [hcollected]
    exact h.answers_step hserver hanswers
  case responders =>
    intro w responder id hresponder hprepares
    exact h.responders_step hallowed hserver hresponder hprepares
  case queues =>
    intro key hkey
    rw [hcollected]
    rcases queues_new hserver key hkey with hold | hinserted
    · exact h.queues key hold
    · exact h.inserted hinserted
  case sessions =>
    rw [hsessions, hcollected]
    exact h.sessions

/-- The network thread removes a queue, and nothing else changes. -/
theorem removeStream_spec {key : QueueKey} {event : QueueEvent}
    (h : s.removeStream config form404 manager ids key event = some t) :
    t = { s with
      server := { s.server with queues := s.server.queues.erase key }
      queueEvents := (key, event) :: s.queueEvents } := by
  unfold Registries.removeStream at h
  split at h
  · obtain ⟨server, hserver, rfl⟩ := Option.map_eq_some_iff.mp h
    simp only [step] at hserver
    split at hserver
    · obtain ⟨-, rfl⟩ := guarded_eq_some_iff.mp hserver
      rfl
    · cases hserver
  · cases h

theorem CollectionInv.removed {key : QueueKey} {event : QueueEvent} (h : CollectionInv ids users s)
    (hstep : s.removeStream config form404 manager ids key event = some t) : CollectionInv ids users t := by
  obtain rfl := removeStream_spec hstep
  refine { h with events := fun key' hkey => ?_, queues := fun key' hkey => ?_ }
  · obtain ⟨hne, hold⟩ := Finset.mem_erase.mp hkey
    rw [List.lookup_cons, beq_eq_false_iff_ne.mpr hne]
    exact h.events key' hold
  · exact h.queues key' (Finset.mem_of_mem_erase hkey)

/-- A callback runs for a connection that was not collected. -/
theorem CollectionInv.registers (h : CollectionInv ids users s) {w : ω} {responder : Responder W}
    {event : FinishedEvent W} (hresponder : s.server.responders w = some responder)
    (hevent : responder.event = some event) : ids.traceId event.scid ∉ s.collected := by
  obtain ⟨id, hprepares, -⟩ := h.prepared w responder hresponder
  obtain ⟨hconn, hscid⟩ := h.responders w responder id hresponder hprepares
  rw [hscid event hevent, ← hconn]
  exact h.answers w id hprepares.answers

/-- At the end of a collection, what was to be removed was. -/
theorem CollectionInv.cleaned {scid : Bytes} (h : CollectionInv ids users s)
    (hrespects : RespectsCollection ids s (.cleanClosedConnexions scid : RegistryAction L W ω U))
    (hstep : registryStep config form404 manager ids users s (.cleanClosedConnexions scid) = some t) :
    CollectionInv ids users t := by
  obtain ⟨⟨hcollecting, hnet⟩, rfl⟩ := guarded_eq_some_iff.mp hstep
  obtain ⟨hremoved, hjobs, hworkers⟩ := hrespects
  have hgone : ∀ {conn : ConnId}, conn = ids.traceId scid ∨ conn ∈ s.collected → s.Gone conn := by
    rintro conn (rfl | hold)
    · exact .inl hcollecting
    · exact .inr hold
  have hother : ∀ {conn : ConnId}, conn ≠ ids.traceId scid → conn ∉ s.collected →
      conn ∉ insert (ids.traceId scid) s.collected := by
    intro conn hne hnot
    rw [Finset.mem_insert, not_or]
    exact ⟨hne, hnot⟩
  refine ⟨h.reach, h.packet, h.prepared, ?signal, ?inFlight, ?net, ?processing, ?jobs, ?answers,
    h.responders, h.events, ?queues, ?sessions⟩
  case signal =>
    rintro id (hid | hid)
    · cases hid
    · exact h.signal id (hgone (Finset.mem_insert.mp hid))
  case inFlight =>
    rintro key hkey (hid | hid)
    · cases hid
    · exact h.inFlight key hkey (hgone (Finset.mem_insert.mp hid))
  case net =>
    intro id hcancels
    rw [hnet] at hcancels
    exact hcancels.elim
  case processing =>
    intro message hm
    obtain ⟨hconn, hopen⟩ := h.processing message hm
    refine ⟨hconn, ?_⟩
    rintro (hid | hid)
    · cases hid
    · exact hopen (hgone (Finset.mem_insert.mp hid))
  case jobs =>
    intro number pc hpc
    obtain ⟨hconn, hopen⟩ := h.jobs number pc hpc
    exact ⟨hconn, fun hinserts => hother (hjobs number pc hpc hinserts) (hopen hinserts)⟩
  case answers => exact fun w id hid => hother (hworkers w id hid) (h.answers w id hid)
  case queues =>
    intro key hkey
    refine hother (fun heq => ?_) (h.queues key hkey)
    have hinserted := h.events key hkey
    obtain ⟨newer, older, hsplit, -⟩ := List.lookup_eq_some_iff.mp hinserted
    have hmem : (key, QueueEvent.inserted) ∈ s.queueEvents := by simp [hsplit]
    rcases hremoved _ hmem (ids.injective heq) with hlast | hlast <;> cases hinserted.symm.trans hlast
  case sessions =>
    intro path bound hbound
    obtain ⟨hold, hne⟩ := (users.mem_removeSessionsByConnection _ _ _).mp hbound
    exact hother (fun heq => hne (ids.injective heq)) (h.sessions path bound hold)

theorem collectionInv_step (h : CollectionInv ids users s) (hrespects : RespectsCollection ids s a)
    (hstep : registryStep config form404 manager ids users s a = some t) :
    CollectionInv ids users t := by
  cases a with
  | server action => exact h.server hstep
  | attachBody w =>
    simp only [registryStep] at hstep
    split at hstep
    case h_2 => cases hstep
    obtain ⟨-, rfl⟩ := guarded_eq_some_iff.mp hstep
    exact { h with }
  | bodyWritten key | resetFailedStream key =>
    simp only [registryStep] at hstep
    split at hstep
    · exact h.removed hstep
    · cases hstep
  | registerSession w path user =>
    simp only [registryStep] at hstep
    split at hstep
    case h_2 => cases hstep
    rename_i scid event hasQueue again stream hresponder hstream
    cases hstep
    refine { h with sessions := fun path' bound hbound => ?_ }
    dsimp only at hbound
    by_cases hpath : path' = path
    · subst hpath
      rw [Function.update_self] at hbound
      rcases users.mem_registerSessions _ _ _ _ hbound with rfl | hold
      · exact h.registers hresponder rfl
      · exact h.sessions path' bound hold
    · rw [Function.update_of_ne hpath] at hbound
      exact h.sessions path' bound hbound
  | cleanClosedConnexions scid => exact h.cleaned hrespects hstep

/-- Nothing of a collected connection is left once its work is settled. -/
theorem CollectionInv.noEntry (h : CollectionInv ids users s) (hconn : conn ∈ s.collected)
    (hsettled : Settled s.server conn) : NoEntry ids users s conn where
  signal id hid := h.signal id (.inr (hid ▸ hconn))
  table id hid := by
    obtain ⟨actions, hactions⟩ := h.reach
    refine (Dispatch.protocol_laws hactions).leftover id (h.signal id (.inr (hid ▸ hconn)))
      (hsettled.work id hid) fun hcancels => ?_
    exact (h.net id hcancels).1 (hid ▸ hconn)
  inFlight key hkey hid := h.inFlight key hkey (.inr (hid ▸ hconn))
  queues key hkey hid := h.queues key hkey (hid ▸ hconn)
  sessions path bound hbound hid := h.sessions path bound hbound (hid ▸ hconn)

/-- The steps of a collection leave the other connections alone. -/
theorem CollectionInv.othersKept (h : CollectionInv ids users s) (hcollects : s.collects a = some conn)
    (hstep : registryStep config form404 manager ids users s a = some t) :
    OthersKept ids users conn s t := by
  cases a with
  | attachBody | bodyWritten | resetFailedStream | registerSession => cases hcollects
  | cleanClosedConnexions scid =>
    obtain ⟨⟨hcollecting, -⟩, rfl⟩ := guarded_eq_some_iff.mp hstep
    cases hcollecting.symm.trans hcollects
    refine ⟨fun _ _ => rfl, fun _ _ => rfl, fun _ _ => Iff.rfl, rfl, fun path bound hne => ?_⟩
    rw [users.mem_removeSessionsByConnection]
    exact and_iff_left fun heq => hne (heq ▸ rfl)
  | server action =>
    obtain ⟨hallowed, hserver, hsessions, -⟩ := server_step hstep
    cases action with
    | closeConnection closed scid =>
      cases hcollects
      have hcloses := closes_of_step hserver
      refine ⟨fun id hne => ?_, fun id _ => by rw [hcloses.table], fun key hne => ?_,
        hcloses.queues, fun path bound _ => by rw [hsessions]⟩
      · rw [hcloses.signal]
        simp [hne]
      · rw [hcloses.verifier, InFlightStreamsPathVerifier.removeConnection, Finset.mem_filter]
        exact and_iff_left fun heq => hne (heq ▸ hallowed.2.symm)
    | protocol internal =>
      cases internal with
      | discard =>
        simp only [step, Internal, if_true] at hserver
        obtain ⟨shared, hshared, hnext⟩ := Option.map_eq_some_iff.mp hserver
        have hothers : ∀ id : ReqId, id.1 ≠ conn → shared.table id = s.server.shared.table id := by
          intro id hne
          rcases quiet_table (a := .discard) trivial hshared id with ⟨-, hsame⟩ | ⟨herases, -⟩
          · exact hsame
          · exact absurd ((h.net id herases).2 conn hcollects) hne
        have hsignal : shared.signal = s.server.shared.signal := by
          cases Dispatch.step_transition hshared <;> rfl
        constructor
        case sessions => exact fun path bound _ => by rw [hsessions]
        all_goals rw [← hnext]
        · exact fun id _ => congrFun hsignal id
        · exact hothers
        · exact fun _ _ => Iff.rfl
      | _ => cases hcollects
    | _ => cases hcollects

/-- In every run that respects collections, a collected connection leaves nothing
behind, and its collection leaves the other connections alone. -/
theorem collection_leaves_nothing {as : List (RegistryAction L W ω U)}
    (hrespects : Every (registryStep config form404 manager ids users) (RespectsCollection ids)
      (registryInit manager users) as)
    (hrun : exec (registryStep config form404 manager ids users) (registryInit manager users) as =
      some s) :
    (∀ conn ∈ s.collected, Settled s.server conn → NoEntry ids users s conn) ∧
      ∀ a t conn, s.collects a = some conn →
        registryStep config form404 manager ids users s a = some t → OthersKept ids users conn s t := by
  have h : CollectionInv ids users s := exec_invariant_of_every collectionInv_init
    (fun _ _ _ h hr hstep => collectionInv_step h hr hstep) hrespects hrun
  exact ⟨fun conn hconn hsettled => h.noEntry hconn hsettled,
    fun a t conn hcollects hstep => h.othersKept hcollects hstep⟩

/-- The server of a run is one the header sections reach. -/
theorem gateInv_of_registries {as : List (RegistryAction L W ω U)}
    (hrun : exec (registryStep config form404 manager ids users) (registryInit manager users) as =
      some s) : GateInv manager s.server := by
  refine exec_invariant (P := fun s => GateInv manager s.server) gateInv_init ?_ hrun
  intro s a t h hstep
  cases a with
  | server action => exact gateInv_step h (server_step hstep).2.1
  | attachBody w =>
    simp only [registryStep] at hstep
    split at hstep
    case h_2 => cases hstep
    obtain ⟨-, rfl⟩ := guarded_eq_some_iff.mp hstep
    exact h
  | bodyWritten key | resetFailedStream key =>
    simp only [registryStep] at hstep
    split at hstep
    · obtain rfl := removeStream_spec hstep
      exact ⟨h.processing, h.jobs, h.shared, h.fresh, h.passed, h.table, h.responders, h.invocations⟩
    · cases hstep
  | registerSession w path user =>
    simp only [registryStep] at hstep
    split at hstep <;> cases hstep
    exact h
  | cleanClosedConnexions scid =>
    obtain ⟨-, rfl⟩ := guarded_eq_some_iff.mp hstep
    exact h

omit [DecidableEq ω] in
/-- No thread of the server has anything to do. -/
theorem settled_of_idle {s : State M H L C W ω} (h : GateInv manager s)
    (hjobs : ∀ number < s.sections, s.jobs number = none ∧ s.shared.jobs number = none)
    (hverdicts : s.shared.verdicts = []) (hreceiver : s.shared.receiver = none)
    (hworkers : ∀ w, s.shared.workers w = .idle) (hinjections : s.shared.injections = [])
    (conn : ConnId) : Settled s conn := by
  have hnone : ∀ number, s.jobs number = none ∧ s.shared.jobs number = none := by
    intro number
    rcases Nat.lt_or_ge number s.sections with hlt | hge
    · exact hjobs number hlt
    · exact h.fresh number hge
  refine ⟨fun number pc hpc => ?_, fun id _ => ⟨fun job hjob => ?_, fun verdict hv => ?_,
    fun hr => ?_, fun w hw => ?_⟩, fun id hid => ?_⟩
  · cases (hnone number).1.symm.trans hpc
  · cases (hnone job).2.symm.trans hjob
  · simp [hverdicts] at hv
  · cases hreceiver.symm.trans hr
  · rw [hworkers w] at hw
    cases hw
  · simp [hinjections] at hid

end Steps

/-! ## A collected connection -/

/-- Two hexadecimal digits for each byte. -/
def hexTraceId (bytes : Bytes) : ConnId :=
  String.ofList (bytes.flatMap fun b => [Nat.digitChar (b.toNat / 16), Nat.digitChar (b.toNat % 16)])

theorem digitChar_injective {m n : Nat} (hm : m < 16) (hn : n < 16)
    (h : Nat.digitChar m = Nat.digitChar n) : m = n := by
  have hall : ∀ m < 16, ∀ n < 16, Nat.digitChar m = Nat.digitChar n → m = n := by decide
  exact hall m hm n hn h

theorem hexTraceId_injective : Function.Injective hexTraceId := by
  intro xs ys h
  have hchars := congrArg String.toList h
  simp only [hexTraceId, String.toList_ofList] at hchars
  clear h
  induction xs generalizing ys with
  | nil => cases ys with
    | nil => rfl
    | cons y ys => simp at hchars
  | cons x xs ih => cases ys with
    | nil => simp at hchars
    | cons y ys =>
      simp only [List.flatMap_cons, List.cons_append, List.nil_append, List.cons.injEq] at hchars
      obtain ⟨hhigh, hlow, hrest⟩ := hchars
      have hx := x.toNat_lt
      have hy := y.toNat_lt
      have hdiv := digitChar_injective (by omega) (by omega) hhigh
      have hmod := digitChar_injective (by omega) (by omega) hlow
      rw [ih hrest, UInt8.toNat_inj.mp (by omega : x.toNat = y.toNat)]

def hexTraceIds : TraceIds := ⟨hexTraceId, hexTraceId_injective⟩

/-- Sessions as a list of users with their connections. -/
def listSessions : UserSessions (List (Nat × Bytes × Nat)) Nat where
  new := []
  registerSessions sessions user ids := (user, ids) :: sessions
  removeSessionsByConnection sessions scid := sessions.filter fun session => session.2.1 ≠ scid
  getAllConnections sessions := sessions.map Prod.snd
  getAllConnections_new := rfl
  mem_registerSessions sessions user ids bound h := by simpa using h
  mem_removeSessionsByConnection sessions scid bound := by simp

/-- A request of the connection is served, up to the answer of its handler. -/
def served : List (RegistryAction Unit Unit Unit Nat) :=
  (([.headers { section0 (getRequest "/a") with id := ("01", 0) }, .processHeader] ++
    calledOnce 0 (.ok (.continued (getRequest "/a"))) ++ accepted 0 ++
    .finished ("01", 0) [1] :: respondedTo : List (Action Unit Unit Unit))).map .server

def closed : List (RegistryAction Unit Unit Unit Nat) :=
  [.server (.closeConnection "01" [1]), .server (.protocol .discard)]

/-- The answer has a body, which is totally written before the connection is closed. -/
def writtenAndClosed : List (RegistryAction Unit Unit Unit Nat) :=
  served ++ [.attachBody (), .server (.endPreparation ()), .bodyWritten (0, [1])] ++ closed

/-- The answer has no body. -/
def servedAndClosed : List (RegistryAction Unit Unit Unit Nat) :=
  served ++ [.server (.endPreparation ())] ++ closed

/-- Nothing is in flight in the state. -/
def idleState (s : State Unit Unit Unit Unit Unit Unit) : Bool :=
  decide (∀ number < s.sections, (s.jobs number).isNone ∧ (s.shared.jobs number).isNone) &&
    s.shared.verdicts.isEmpty && s.shared.receiver.isNone &&
    decide (s.shared.workers () = .idle) && s.shared.injections.isEmpty

theorem settled_of_idleState {s : State Unit Unit Unit Unit Unit Unit} (h : GateInv guardedRoute s)
    (hidle : idleState s = true) (conn : ConnId) : Settled s conn := by
  simp only [idleState, Bool.and_eq_true, decide_eq_true_eq, Option.isNone_iff_eq_none,
    List.isEmpty_iff] at hidle
  obtain ⟨⟨⟨⟨hjobs, hverdicts⟩, hreceiver⟩, hworkers⟩, hinjections⟩ := hidle
  exact settled_of_idle h hjobs hverdicts hreceiver (fun _ => hworkers) hinjections conn

/-- Whether the step ends a collection. -/
def RegistryAction.Cleans : RegistryAction L W ω U → Bool
  | .cleanClosedConnexions _ => true
  | _ => false

theorem respects_of_not_cleans {config : ServerConfig} {form404 : Option ErrorForm}
    {manager : RouteManager M H L C} {ids : TraceIds} {users : UserSessions T U}
    {as : List (RegistryAction L W ω U)} (h : ∀ a ∈ as, a.Cleans = false) (s : Registries M H L C W ω T) :
    Every (registryStep config form404 manager ids users) (RespectsCollection ids) s as := by
  induction as generalizing s with
  | nil => trivial
  | cons a as ih =>
    refine ⟨?_, fun t _ => ih (fun b hb => h b (List.mem_cons_of_mem _ hb)) t⟩
    have hfirst := h a List.mem_cons_self
    cases a with
    | cleanClosedConnexions => cases hfirst
    | _ => trivial

theorem collection_leaves_nothing_written :
    ∃ s, exec (registryStep ⟨⟨[]⟩⟩ none guardedRoute hexTraceIds listSessions)
        (registryInit guardedRoute listSessions) (writtenAndClosed ++ [.cleanClosedConnexions [1]]) = some s ∧
      "01" ∈ s.collected ∧ NoEntry hexTraceIds listSessions s "01" := by
  have hrun : ((exec (registryStep ⟨⟨[]⟩⟩ none guardedRoute hexTraceIds listSessions)
      (registryInit guardedRoute listSessions) writtenAndClosed).any fun s =>
      decide (s.collecting = some "01") && decide (s.server.shared.net = .idle) && idleState s.server &&
        s.queueEvents.all fun entry => s.queueEvents.lookup entry.1 == some .bodyWritten) = true := by
    decide +kernel
  obtain ⟨u, hu, hlast⟩ := Option.any_eq_true _ _ |>.mp hrun
  simp only [Bool.and_eq_true, decide_eq_true_eq, List.all_eq_true, beq_iff_eq] at hlast
  obtain ⟨⟨⟨hcollecting, hnet⟩, hidle⟩, hwritten⟩ := hlast
  have hsettled := settled_of_idleState (gateInv_of_registries hu) hidle "01"
  have hworkers : ∀ w, u.server.shared.workers w = .idle := by
    simp only [idleState, Bool.and_eq_true, decide_eq_true_eq] at hidle
    exact fun _ => hidle.1.2
  obtain ⟨s, hstep, hserver, hcollected⟩ :
      ∃ s, registryStep ⟨⟨[]⟩⟩ none guardedRoute hexTraceIds listSessions u (.cleanClosedConnexions [1]) =
        some s ∧ s.server = u.server ∧ "01" ∈ s.collected :=
    ⟨_, guarded_eq_some_iff.mpr ⟨⟨hcollecting, hnet⟩, rfl⟩, rfl, Finset.mem_insert_self _ _⟩
  have hrespects : RespectsCollection hexTraceIds u
      (.cleanClosedConnexions [1] : RegistryAction Unit Unit Unit Nat) := by
    refine ⟨fun entry hentry _ => .inl (hwritten entry hentry), fun number pc hpc _ => ?_, fun w id hid => ?_⟩
    · exact hsettled.jobs number pc hpc
    · rw [hworkers w] at hid
      cases hid
  have hs : exec (registryStep ⟨⟨[]⟩⟩ none guardedRoute hexTraceIds listSessions)
      (registryInit guardedRoute listSessions) (writtenAndClosed ++ [.cleanClosedConnexions [1]]) = some s := by
    rw [exec_snoc, hu]
    exact hstep
  have hevery : Every (registryStep ⟨⟨[]⟩⟩ none guardedRoute hexTraceIds listSessions)
      (RespectsCollection hexTraceIds) (registryInit guardedRoute listSessions)
      (writtenAndClosed ++ [.cleanClosedConnexions [1]]) := by
    refine every_append.mpr ⟨respects_of_not_cleans (by decide) _, fun v hv => ?_⟩
    cases hu.symm.trans hv
    exact ⟨hrespects, fun _ _ => trivial⟩
  exact ⟨s, hs, hcollected, (collection_leaves_nothing hevery hs).1 "01" hcollected (hserver ▸ hsettled)⟩

/-- The queue of the served request is still there. -/
theorem collection_leaves_queue :
    ∃ s, exec (registryStep ⟨⟨[]⟩⟩ none guardedRoute hexTraceIds listSessions)
        (registryInit guardedRoute listSessions) (servedAndClosed ++ [.cleanClosedConnexions [1]]) = some s ∧
      "01" ∈ s.collected ∧ Settled s.server "01" ∧ ¬ NoEntry hexTraceIds listSessions s "01" := by
  have hrun : ((exec (registryStep ⟨⟨[]⟩⟩ none guardedRoute hexTraceIds listSessions)
      (registryInit guardedRoute listSessions) (servedAndClosed ++ [.cleanClosedConnexions [1]])).any fun s =>
      decide ("01" ∈ s.collected) && idleState s.server &&
        decide ((0, [1]) ∈ s.server.queues)) = true := by
    decide +kernel
  obtain ⟨s, hs, hlast⟩ := Option.any_eq_true _ _ |>.mp hrun
  obtain ⟨hlast, hqueue⟩ := Bool.and_eq_true_iff.mp hlast
  obtain ⟨hcollected, hidle⟩ := Bool.and_eq_true_iff.mp hlast
  refine ⟨s, hs, of_decide_eq_true hcollected,
    settled_of_idleState (gateInv_of_registries hs) hidle "01", fun h => ?_⟩
  exact h.queues (0, [1]) (of_decide_eq_true hqueue) (by decide)

end FacesHttp3.Server
