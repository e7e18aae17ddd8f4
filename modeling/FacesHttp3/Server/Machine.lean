import FacesHttp3.Dispatch.Protocol
import FacesHttp3.InFlight
import FacesHttp3.RequestsTable

/-! # The server around the dispatch protocol

The HTTP/3 events of the network thread, the header processor, the middleware
workers and the response workers, with the route table between them: what the
steps of the dispatch protocol write into the request table, and what they read
out of it. One step is one access of one thread, or one call of the user's code,
whose answers are the environment's choice. Queued header sections and waiting
jobs are taken in any order and by any number of workers; the send loop is here
only the thread that removes stream queues. -/

namespace FacesHttp3.Server
open FacesHttp3.Lib FacesHttp3.Lib.Exec FacesHttp3.Request FacesHttp3.Router
open FacesHttp3.RequestsTable FacesHttp3.InFlight

variable {M H L C W ω : Type}

structure HeaderMessage where
  id : ReqId
  scid : Bytes
  moreFrames : Bool
  headers : List Header

/-- The answer an aborting middleware wants sent, with its content. -/
inductive ErrorResponse
  | error401 (content : Option Bytes)
  | error403 (content : Option Bytes)
  | error415 (content : Option Bytes)

/-- The answer of a middleware; its callback may also fail. -/
inductive MiddleWareFlow
  | continued (headers : List Header)
  | aborted (response : ErrorResponse)

inductive RouteType
  | regular
  | stream
  deriving DecidableEq

/-- What `send_header_work` makes of a header message. -/
structure MiddleWareJob (M : Type) where
  path : String
  method : H3Method
  routeType : RouteType
  contentLength : Option Nat
  middlewareCollection : List M
  message : HeaderMessage

/-! ## Error responses -/

/-- A configured 404 response: its headers after the status. The builder has no way
to give it a body. -/
structure ErrorForm where
  headers : List Header

/-- The final header of an error response, as it is queued on the stream. -/
structure ErrorHeader where
  headers : List Header
  isEnd : Bool
  body : Option Bytes
  deriving DecidableEq

def status (code : String) : Header := ⟨ascii ":status", ascii code⟩

def send404 (form : Option ErrorForm) (reqPath : String) : ErrorHeader where
  headers := match form with
    | some form => status "404" :: form.headers ++ [⟨ascii "x-wrong-path", reqPath.toUTF8.toList⟩]
    | none => [status "404"]
  isEnd := true
  body := none

def ErrorResponse.statusContent : ErrorResponse → String × Option Bytes
  | .error401 content => ("401", content)
  | .error403 content => ("403", content)
  | .error415 content => ("415", content)

def sendError (response : ErrorResponse) : ErrorHeader :=
  let (code, content) := response.statusContent
  let body := content.filter fun data => !data.isEmpty
  { headers := [status code], isEnd := body.isNone, body }

/-- Why a header section is rejected. -/
inductive Rejection
  | unknownRoute
  | aborted (response : ErrorResponse)

def Rejection.header (form : Option ErrorForm) : Rejection → ErrorHeader
  | .unknownRoute => send404 form "/404"
  | .aborted response => sendError response

/-! ## The header processor -/

inductive HeaderWork (M : Type)
  | execute (job : MiddleWareJob M)
  | unknownRoute
  | malformed

/-- `run_header_processor` on one message: the middlewares of the route, else
those of the downstream under the path. -/
def headerWork (manager : RouteManager M H L C) (message : HeaderMessage) : HeaderWork M :=
  match parseRequestHeaders message.headers with
  | none => .malformed
  | some (method, path, contentLength) =>
    match H3Method.parse method with
    | none => .malformed
    | some method =>
      match manager.getRoutesFromPathAndMethod path method with
      | some (route, _) => .execute {
          routeType := .regular, middlewareCollection := route.toMiddlewareColl
          path, method, contentLength, message }
      | none =>
        match manager.getStreamFromPath path with
        | some stream => .execute {
            routeType := .stream, middlewareCollection := stream.middlewares
            path, method, contentLength, message }
        | none => .unknownRoute

/-! ## The middleware workers -/

/-- A call of a middleware that was answered. -/
structure Call (M : Type) where
  middleware : M
  given : List Header
  returned : List Header

/-- Where a header section stands between its event and its verdict, or its error
response: queued for the header processor, waiting for a worker, in the hands of
one, or in those of the thread that answers rejected sections. `calls` are the
calls that were answered with `Continue`. -/
inductive JobPc (M : Type)
  | queued (message : HeaderMessage)
  | waiting (job : MiddleWareJob M)
  | calling (job : MiddleWareJob M) (tempsHeaders : List Header) (rest : List M)
    (calls : List (Call M))
  | checked (job : MiddleWareJob M) (isSet : Bool) (headers : List Header)
  | creating (job : MiddleWareJob M) (headers : List Header)
  | written (job : MiddleWareJob M)
  | reported (job : MiddleWareJob M)
  | rejecting (message : HeaderMessage) (rejection : Rejection)
  | rejected (message : HeaderMessage) (rejection : Rejection)
  | answering (message : HeaderMessage) (rejection : Rejection)
  | sending (message : HeaderMessage) (rejection : Rejection)

def JobPc.message : JobPc M → HeaderMessage
  | .queued message => message
  | .waiting job => job.message
  | .calling job _ _ _ => job.message
  | .checked job _ _ => job.message
  | .creating job _ => job.message
  | .written job => job.message
  | .reported job => job.message
  | .rejecting message _ => message
  | .rejected message _ => message
  | .answering message _ => message
  | .sending message _ => message

/-- The section has its verdict. -/
def JobPc.Judged : JobPc M → Bool
  | .rejected _ _ | .answering _ _ | .sending _ _ => true
  | _ => false

/-- What the worker knows of the request when its middlewares continued. A request
of a downstream always counts as having more frames. -/
def MiddleWareJob.accepted (job : MiddleWareJob M) (headers : List Header) : Accepted where
  path := job.path
  method := job.method
  headers := headers
  contentLength := job.contentLength
  moreFrames :=
    match job.routeType with
    | .regular => job.message.moreFrames
    | .stream => true

/-- The attributes a request is completed with. -/
def MiddleWareJob.attributes (manager : RouteManager M H L C) (job : MiddleWareJob M) :
    Option DataManagement × Option L :=
  match job.routeType with
  | .regular => getAdditionnalAttributes manager job.path job.method
  | .stream => (some (.storage .inMemory), none)

/-! ## The file workers -/

/-- Which file worker writes for a stream; streams are associated in turn, and
for good. -/
structure FileWriterPool where
  streamMap : PMap ReqId Nat := PMap.empty
  currentChannelAvailable : Nat := 0

def workersAmount : Nat := 8

namespace FileWriterPool

def associateStreamWithNextListener (pool : FileWriterPool) (id : ReqId) : FileWriterPool :=
  match pool.streamMap id with
  | some _ => pool
  | none => {
      streamMap := pool.streamMap.insert id pool.currentChannelAvailable
      currentChannelAvailable := (pool.currentChannelAvailable + 1) % workersAmount }

/-- The writer is refused for a stream without a worker. -/
def createFileWriterHandle {W : Type} (pool : FileWriterPool) (id : ReqId) (writer : W) : Option W :=
  (pool.streamMap id).map fun _ => writer

/-- How a storage file comes to be: `file` is the writer of the file that
`File::create` opened, if it did. -/
def createStorage {W : Type} (pool : FileWriterPool) (id : ReqId)
    (dataManagementType : Option DataManagement) (file : Option W) :
    FileWriterPool × FileCreation W :=
  match dataManagementType.bind DataManagement.isBodyStorage with
  | some .file =>
    let pool := pool.associateStreamWithNextListener id
    match file with
    | none => (pool, .createFailed)
    | some writer =>
      match pool.createFileWriterHandle id writer with
      | some writer => (pool, .created writer)
      | none => (pool, .handleFailed)
  | _ => (pool, .createFailed)

/-- A stream that was just associated gets its writer. -/
theorem createStorage_ne_handleFailed {W : Type} (pool : FileWriterPool) (id : ReqId)
    (dataManagementType : Option DataManagement) (file : Option W) :
    (pool.createStorage id dataManagementType file).2 ≠ .handleFailed := by
  have hassociated : ((pool.associateStreamWithNextListener id).streamMap id).isSome := by
    unfold associateStreamWithNextListener
    cases h : pool.streamMap id <;> simp [h]
  obtain ⟨index, hindex⟩ := Option.isSome_iff_exists.mp hassociated
  unfold createStorage
  split
  · cases file <;> simp [createFileWriterHandle, hindex]
  · simp

end FileWriterPool

/-! ## The response workers -/

/-- A call of the user's code with the event of a finished request. -/
inductive Invocation (H C W : Type)
  | handler (event : FinishedEvent W) (handler : H)
  | downStream (event : FinishedEvent W) (callback : C)

def Invocation.event : Invocation H C W → FinishedEvent W
  | .handler event _ => event
  | .downStream event _ => event

/-- The calls of `response_preparation_with_route_handler`: the handlers the
dispatcher has for the event if the path and the method have a route, else the
callback of the downstream under the path, once its opening is queued. -/
def respond (manager : RouteManager M H L C) (event : Option (FinishedEvent W)) (opened : Bool) :
    List (Invocation H C W) :=
  match event with
  | none => []
  | some event =>
    match manager.getRoutesFromPathAndMethod event.path event.method with
    | some _ =>
      (manager.routeEventDispatcher.handlersFor event.path event.method).map (.handler event)
    | none =>
      match manager.getStreamFromPath event.path with
      | some stream => if opened then [.downStream event stream.streamHandler] else []
      | none => []

/-- Whether the arm of the route's method inserts the queue again: those of POST and
DELETE do, once the handlers were called. -/
def insertsAgain (manager : RouteManager M H L C) (event : Option (FinishedEvent W)) : Bool :=
  match event with
  | none => false
  | some event =>
    match manager.getRoutesFromPathAndMethod event.path event.method with
    | some (route, _) => route.method = .POST || route.method = .DELETE
    | none => false

/-- A response worker with the event it built, if any; `again` while the arm of the
method has still to insert the queue. -/
structure Responder (W : Type) where
  scid : Bytes
  event : Option (FinishedEvent W)
  hasQueue : Bool := false
  called : Bool := false
  again : Bool := false

def Responder.ofEvent (manager : RouteManager M H L C) (scid : Bytes) (event : Option (FinishedEvent W)) :
    Responder W :=
  { scid, event, again := insertsAgain manager event }

/-- It comes to an insertion of the queue: before the call, or in the arm behind it. -/
def Responder.Inserts (responder : Responder W) : Bool :=
  if responder.called then responder.again else !responder.hasQueue

def Responder.insertQueue (responder : Responder W) : Responder W :=
  if responder.called then { responder with again := false } else { responder with hasQueue := true }

@[simp] theorem insertQueue_scid (responder : Responder W) :
    responder.insertQueue.scid = responder.scid := by
  unfold Responder.insertQueue
  split <;> rfl

@[simp] theorem insertQueue_event (responder : Responder W) :
    responder.insertQueue.event = responder.event := by
  unfold Responder.insertQueue
  split <;> rfl

@[simp] theorem insertQueue_called (responder : Responder W) :
    responder.insertQueue.called = responder.called := by
  unfold Responder.insertQueue
  split <;> rfl

/-! ## The machine -/

inductive NetworkPc
  | idle
  | processing (message : HeaderMessage)
  | missing (id : ReqId)
  | entered (id : ReqId)

/-- The queue of a stream: the connection by its source id. -/
abbrev QueueKey := Nat × Bytes

/-- The jobs are numbered by their header section. The lists are histories that no
thread reads: the header sections of the connections, the jobs whose middlewares
all continued with their calls, the verdicts and the queued error responses by
section, the calls of the user's code and the streams shut down by a header
section. -/
structure State (M H L C W ω : Type) where
  shared : Dispatch.State (PartialReq L W) ω := {}
  verifier : InFlightStreamsPathVerifier
  network : NetworkPc := .idle
  jobs : PMap Nat (JobPc M) := PMap.empty
  sections : Nat := 0
  pool : FileWriterPool := {}
  responders : ω → Option (Responder W) := fun _ => none
  queues : Finset QueueKey := ∅
  received : List HeaderMessage := []
  passed : List (MiddleWareJob M × List (Call M)) := []
  verdicts : List (Nat × ReqId × Dispatch.Verdict) := []
  errors : List (Nat × QueueKey × ErrorHeader) := []
  invocations : List (Invocation H C W) := []
  shutdowns : List ReqId := []

/-- Network thread: `headers` to `removeStream`; header processor: `processNext`; a
middleware worker: `takeJob` to `sendSignal`; the thread that rejects and answers
a section: `sendRejected` to `sendError`; a response worker: `buildRouteEvent` to
`endPreparation`. The steps of the protocol that only concern its own tables are
`protocol`. -/
inductive Action (L W ω : Type)
  | headers (message : HeaderMessage)
  | processHeader
  | dataCheck (id : ReqId)
  | dataSet
  | dataWrite (packet : Bytes)
  | finished (id : ReqId) (scid : Bytes)
  | reset (id : ReqId) (scid : Bytes)
  | closeConnection (conn : ConnId) (scid : Bytes)
  | removeStream (key : QueueKey)
  | processNext (number : Nat)
  | takeJob (number : Nat)
  | callMiddleware (number : Nat) (answer : Except Unit MiddleWareFlow)
  | check (number : Nat)
  | complete (number : Nat) (uuid : String) (file : Option W)
  | lookup (number : Nat)
  | create (number : Nat) (uuid : String) (file : Option W)
  | sendReceptionStatus (number : Nat)
  | sendSignal (number : Nat)
  | sendRejected (number : Nat)
  | insertErrorQueue (number : Nat)
  | getSenders (number : Nat)
  | sendError (number : Nat)
  | buildRouteEvent (worker : ω) (scid : Bytes)
  | insertQueue (worker : ω)
  | callHandler (worker : ω)
  | endPreparation (worker : ω)
  | protocol (action : Dispatch.Action (PartialReq L W) ω)

/-- Steps of the protocol that involve nothing else. -/
def Internal {ρ : Type} : Dispatch.Action ρ ω → Bool
  | .discard | .receive | .receiverDiscard => true
  | .pick _ | .removeIf _ | .containsKey _ | .requeue _ | .cleanEntry _ | .discardRejected _ => true
  | _ => false

/-- The entry of `id` becomes what it is in `table`. -/
def writeFrom (table : Table L W) (id : ReqId) : Option (PartialReq L W) → Option (PartialReq L W) :=
  fun _ => table id

def HeaderMessage.queueKey (message : HeaderMessage) : QueueKey := (message.id.2, message.scid)

variable [DecidableEq ω]

/-- A step of the protocol and what goes with it. -/
def State.along (s : State M H L C W ω) (action : Dispatch.Action (PartialReq L W) ω)
    (next : State M H L C W ω) : Option (State M H L C W ω) :=
  (Dispatch.step s.shared action).map fun shared => { next with shared }

omit [DecidableEq ω] in
def State.setJob (s : State M H L C W ω) (number : Nat) (pc : JobPc M) : State M H L C W ω :=
  { s with jobs := s.jobs.insert number pc }

omit [DecidableEq ω] in
def State.endJob (s : State M H L C W ω) (number : Nat) : State M H L C W ω :=
  { s with jobs := s.jobs.erase number }

def step (config : ServerConfig) (form404 : Option ErrorForm) (manager : RouteManager M H L C)
    (s : State M H L C W ω) : Action L W ω → Option (State M H L C W ω)
  | .headers message =>
    match s.network, extractPathFromHdr message.headers with
    | .idle, some path =>
      s.along (.begin message.id) { s with
        verifier := (s.verifier.insertStreamPathForConn message.scid message.id.2 path).2
        network := .processing message
        received := s.received ++ [message] }
    | .idle, none =>
      -- rejected before a path is recorded or work is queued
      s.along (.cancelRequest message.id) { s with
        verifier := (s.verifier.isFinishedRequestAValidPath message.scid message.id.2).2
        received := s.received ++ [message]
        shutdowns := s.shutdowns ++ [message.id] }
    | _, _ => none
  | .processHeader =>
    match s.network with
    | .processing message =>
      s.along (.startJob s.sections message.id) { s.setJob s.sections (.queued message) with
        network := .idle
        sections := s.sections + 1 }
    | _ => none
  | .dataCheck id =>
    match s.network with
    | .idle =>
      let isSet := Table.isEntryPartialReponseSet s.shared.table id
      guarded (s.shared.net = .idle) { s with
        network := if isSet then .entered id else .missing id }
    | _ => none
  | .dataSet =>
    match s.network with
    | .missing id => some { s with
        shared := s.shared.write id (writeFrom (Table.setRequestInTable s.shared.table id) id)
        network := .entered id }
    | _ => none
  | .dataWrite packet =>
    match s.network with
    | .entered id => some { s with
        shared := s.shared.write id
          (writeFrom (Table.writeBodyPacket s.shared.table id packet false).1 id)
        network := .idle }
    | _ => none
  | .finished id scid =>
    match s.network with
    | .idle =>
      let (action, verifier) := onFinished s.verifier scid id.2
      match action with
      | .handleFinishedStream => s.along (.finish id) { s with verifier }
      | .cancelRequest => s.along (.cancelRequest id) { s with verifier }
    | _ => none
  | .reset id scid =>
    match s.network with
    | .idle => s.along (.cancelRequest id) { s with
        verifier := (s.verifier.isFinishedRequestAValidPath scid id.2).2 }
    | _ => none
  | .closeConnection conn scid =>
    match s.network with
    | .idle => s.along (.cancelConnection conn) { s with
        verifier := s.verifier.removeConnection scid }
    | _ => none
  | .removeStream key =>
    match s.network with
    | .idle => guarded (s.shared.net = .idle) { s with queues := s.queues.erase key }
    | _ => none
  | .processNext number =>
    match s.jobs number with
    | some (.queued message) =>
      match headerWork manager message with
      | .execute job => some (s.setJob number (.waiting job))
      | .unknownRoute => some (s.setJob number (.rejecting message .unknownRoute))
      | .malformed => some (s.endJob number)
    | _ => none
  | .takeJob number =>
    match s.jobs number with
    | some (.waiting job) =>
      some (s.setJob number (.calling job job.message.headers job.middlewareCollection []))
    | _ => none
  | .callMiddleware number answer =>
    match s.jobs number with
    | some (.calling job tempsHeaders (middleware :: rest) calls) =>
      match answer with
      | .ok (.continued headers) =>
        let calls := calls ++ [⟨middleware, tempsHeaders, headers⟩]
        some (s.setJob number (.calling job headers rest calls))
      | .ok (.aborted response) => some (s.setJob number (.rejecting job.message (.aborted response)))
      | .error () =>
        let response := .error415 (some (ascii "failed to call middleware"))
        some (s.setJob number (.rejecting job.message (.aborted response)))
    | _ => none
  | .check number =>
    match s.jobs number with
    | some (.calling job headers [] calls) =>
      let isSet := Table.isEntryPartialReponseSet s.shared.table job.message.id
      some { s.setJob number (.checked job isSet headers) with
        passed := s.passed ++ [(job, calls)] }
    | _ => none
  | .complete number uuid file =>
    match s.jobs number with
    | some (.checked job true headers) =>
      let attributes := job.attributes manager
      let (pool, creation) := s.pool.createStorage job.message.id attributes.1 file
      let completed := completion config (job.accepted headers) uuid creation attributes
      let table := Table.completeRequestEntryInTable s.shared.table job.message.id completed
      s.along (.jobWrite number (writeFrom table job.message.id))
        { s.setJob number (.written job) with pool }
    | _ => none
  | .lookup number =>
    match s.jobs number with
    | some (.checked job false headers) =>
      let request := job.accepted headers
      match Table.addPartialRequestFound s.shared.table job.message.id request.method
          request.headers request.path request.contentLength with
      | some table =>
        s.along (.jobWrite number (writeFrom table job.message.id)) (s.setJob number (.written job))
      | none => some (s.setJob number (.creating job headers))
    | _ => none
  | .create number uuid file =>
    match s.jobs number with
    | some (.creating job headers) =>
      let request := job.accepted headers
      let attributes := newRequestAttributes manager request.path request.method
      let (pool, creation) := s.pool.createStorage job.message.id attributes.1 file
      let table := Table.addPartialRequestAbsent s.shared.table config job.message.id
        request.method attributes.1 attributes.2 request.headers request.path
        request.contentLength (!request.moreFrames) uuid creation
      s.along (.jobWrite number (writeFrom table job.message.id))
        { s.setJob number (.written job) with pool }
    | _ => none
  | .sendReceptionStatus number =>
    -- the interim header needs the queue; that it may be lost changes nothing here
    match s.jobs number with
    | some (.written job) => some { s.setJob number (.reported job) with
        queues := insert job.message.queueKey s.queues }
    | _ => none
  | .sendSignal number =>
    match s.jobs number with
    | some (.reported job) =>
      s.along (.jobVerdict number .ready) { s.endJob number with
        verdicts := s.verdicts ++ [(number, job.message.id, .ready)] }
    | _ => none
  | .sendRejected number =>
    match s.jobs number with
    | some (.rejecting message rejection) =>
      s.along (.jobVerdict number .rejected) { s.setJob number (.rejected message rejection) with
        verdicts := s.verdicts ++ [(number, message.id, .rejected)] }
    | _ => none
  | .insertErrorQueue number =>
    match s.jobs number with
    | some (.rejected message rejection) =>
      some { s.setJob number (.answering message rejection) with
        queues := insert message.queueKey s.queues }
    | _ => none
  | .getSenders number =>
    match s.jobs number with
    | some (.answering message rejection) =>
      -- a response with a body is given up without the sender its chunks need
      if (rejection.header form404).body.isSome ∧ message.queueKey ∉ s.queues then
        some (s.endJob number)
      else some (s.setJob number (.sending message rejection))
    | _ => none
  | .sendError number =>
    match s.jobs number with
    | some (.sending message rejection) =>
      if message.queueKey ∈ s.queues then some { s.endJob number with
        errors := s.errors ++ [(number, message.queueKey, rejection.header form404)] }
      else some (s.endJob number)
    | _ => none
  | .buildRouteEvent w scid =>
    match s.shared.workers w with
    | .taken id _ _ =>
      let event := (s.shared.table id).bind fun entry => (entry.buildRouteEvent id scid).2.1
      let responder := Responder.ofEvent manager scid event
      s.along (.buildRouteEvent w fun entry => (entry.buildRouteEvent id scid).1)
        { s with responders := Function.update s.responders w (some responder) }
    | _ => none
  | .insertQueue w =>
    match s.shared.workers w, s.responders w with
    | .responding id, some responder =>
      guarded (responder.Inserts = true) { s with
        responders := Function.update s.responders w (some responder.insertQueue)
        queues := insert (id.2, responder.scid) s.queues }
    | _, _ => none
  | .callHandler w =>
    match s.shared.workers w, s.responders w with
    | .responding id, some responder =>
      let opened := decide ((id.2, responder.scid) ∈ s.queues)
      guarded (responder.hasQueue = true ∧ responder.called = false) { s with
        responders := Function.update s.responders w (some { responder with called := true })
        invocations := s.invocations ++ respond manager responder.event opened }
    | _, _ => none
  | .endPreparation w =>
    match s.responders w with
    | some { called := true, again := false, .. } =>
      s.along (.endPreparation w) { s with responders := Function.update s.responders w none }
    | _ => none
  | .protocol action => if Internal action then s.along action s else none

/-- The server as it is built. -/
def init (manager : RouteManager M H L C) : State M H L C W ω where
  verifier := .ofManager manager ∅

/-! ## A small server -/

/-- One GET route at `/a`, with a middleware and a handler. -/
def guardedRoute : RouteManager Unit Unit Unit Unit where
  routesFormats :=
    { entries := [("/a", [⟨.GET, none, [()], [()], "/a", some default⟩])]
      keys_nodup := by simp
      path_eq := by simp
      methods_nodup := by simp }
  streamSessions := []

def getRequest (path : String) : List Header := [⟨ascii ":method", ascii "GET"⟩, ⟨ascii ":path", ascii path⟩]

/-- A header section of stream 0 of the connection `c`. -/
def section0 (headers : List Header) : HeaderMessage := ⟨("c", 0), [1], false, headers⟩

/-- Section `number` is given to a worker, which calls the middleware. -/
def calledOnce (number : Nat) (answer : Except Unit MiddleWareFlow) : List (Action Unit Unit Unit) :=
  [.processNext number, .takeJob number, .callMiddleware number answer]

/-- The middleware of section `number` continued. -/
def accepted (number : Nat) : List (Action Unit Unit Unit) :=
  [.check number, .lookup number, .create number "u" none, .sendReceptionStatus number,
    .sendSignal number, .protocol .receive]

/-- A finished request is taken by the response worker, up to its handler. -/
def respondedTo : List (Action Unit Unit Unit) :=
  [.protocol (.pick ()), .protocol (.removeIf ()), .buildRouteEvent () [1], .protocol (.cleanEntry ()),
    .insertQueue (), .callHandler ()]

end FacesHttp3.Server
