import FacesHttp3.SendLoop.Queue
import FacesHttp3.Server.Entries

/-! # The final response

What a response worker makes of the answer of a route's handlers: the final
header, and the body attached to it. Whether the headers of a GET response end
their stream is read off the request, from a flag that the headers and every body
packet of the request set. -/

namespace FacesHttp3.Server
open FacesHttp3.Lib FacesHttp3.Lib.Exec FacesHttp3.Request FacesHttp3.Router
open FacesHttp3.RequestsTable FacesHttp3.InFlight
open FacesHttp3.SendLoop (BodyType HeaderRequest HeaderPriority ChunkSender FileAnswers Panic
  responseEndsOnHeaders nonEmptyAttachedBody)

variable {M H L C W ω : Type}

/-! ## Responses -/

/-- What a handler answers. -/
inductive RouteResponse
  | ok200
  | ok200Data (data : Bytes)
  | ok200Json (data : Bytes)
  | ok200File (path : String)
  | error409 (data : Bytes)
  | error503 (data : Bytes)
  | error403 (data : Bytes)
  | error401 (data : Bytes)
  | error422 (data : Bytes)
  | error428 (data : Bytes)
  deriving DecidableEq

structure RequestResponse where
  status : Header
  contentLength : Option Header
  contentType : Option Header
  custom : List Header
  body : BodyType

namespace RequestResponse

def contentLengthHeader (len : Nat) : Header := ⟨ascii "content-length", ascii (toString len)⟩

def json : Header := ⟨ascii "content-type", ascii "application/json"⟩

/-- `build` of a response with a body of bytes; no constructor sets a content type
other than through a custom header. -/
def newData (code : String) (custom : List Header) (data : Bytes) : RequestResponse where
  status := Server.status code
  contentLength := some (contentLengthHeader data.length)
  contentType := none
  custom := custom
  body := .data data none

def newOk200 : RequestResponse where
  status := Server.status "200"
  contentLength := none
  contentType := none
  custom := []
  body := .none

/-- `fileLen` is the length of the file when the response is built, 0 if it is none. -/
def new200WithFile (path : String) (fileLen : Nat) : RequestResponse where
  status := Server.status "200"
  contentLength := some (contentLengthHeader fileLen)
  contentType := none
  custom := []
  body := .filePath path none

def new200WithData := newData "200" []
def new200WithJson := newData "200" [json]
def new409WithData := newData "409" [json]
def new503WithData := newData "503" [json]
def new401WithData := newData "401" [json]
def new422WithData := newData "422" [json]
def new428WithData := newData "428" [json]
def new403WithData := newData "403" [json]

def getHeaders (response : RequestResponse) : List Header :=
  response.status :: response.contentType.toList ++ response.custom ++ response.contentLength.toList

def attachChunkSender (sender : ChunkSender) (response : RequestResponse) : RequestResponse :=
  { response with
    body := match response.body with
      | .data data _ => .data data (some sender)
      | .streamData data _ => .streamData data (some sender)
      | .filePath path _ => .filePath path (some sender)
      | .none => .none }

end RequestResponse

/-- The answer of the last handler; each is given the event and the answer before it. -/
def dispatchFinished (call : H → FinishedEvent W → RouteResponse → FinishedEvent W × RouteResponse)
    (handlers : List H) (event : FinishedEvent W) : RouteResponse :=
  (handlers.foldl (fun answered handle => call handle answered.1 answered.2) (event, .ok200)).2

open RequestResponse in
/-- `process_handler`, after the dispatcher answered. -/
def processHandler (fileLen : String → Nat) : RouteResponse → RequestResponse
  | .ok200 => newOk200
  | .ok200File path => new200WithFile path (fileLen path)
  | .ok200Data data => new200WithData data
  | .ok200Json data => new200WithJson data
  | .error409 data => new409WithData data
  | .error503 data => new503WithData data
  | .error401 data => new401WithData data
  | .error422 data => new422WithData data
  | .error428 data => new428WithData data
  | .error403 data => new403WithData data

/-- `build_response` of the route: headers and body, the plain 200 without a response. -/
def buildResponse : Option RequestResponse → List Header × Option BodyType
  | some response =>
    (response.getHeaders, if response.body = .none then none else some response.body)
  | none => (RequestResponse.newOk200.getHeaders, none)

/-- What `response_preparation_with_route_handler` is answered: by the handlers, by
the file system, and by the queues it asks for a sender. -/
structure PreparationAnswers (H W : Type) where
  call : H → FinishedEvent W → RouteResponse → FinishedEvent W × RouteResponse
  fileLen : String → Nat
  bodySender : Option ChunkSender

/-- The answer of the event's handlers. -/
def PreparationAnswers.response (answers : PreparationAnswers H W) (manager : RouteManager M H L C)
    (event : FinishedEvent W) : RouteResponse :=
  dispatchFinished answers.call
    (manager.routeEventDispatcher.handlersFor event.path event.method) event

/-- The final header of a response, which ends the stream if it has no body and
`isEnd` holds. -/
def finalHeader (answers : PreparationAnswers H W) (response : RequestResponse) (isEnd : Bool)
    (priorityMode : HeaderPriority) : Except Panic HeaderRequest :=
  match answers.bodySender with
  | none => .error .noSender
  | some sender =>
    let (headers, body) := buildResponse (some (response.attachChunkSender sender))
    match body with
    | some body => .ok { headers, isEnd := false, priorityMode, attachedBody := some body }
    | none => .ok { headers, isEnd, priorityMode, attachedBody := none }

/-- `response_preparation_with_route_handler` on the event it built: the final header it
queues if the event's path and method have a route. -/
def responsePreparation (manager : RouteManager M H L C) (answers : PreparationAnswers H W)
    (event : Option (FinishedEvent W)) (headerPriority : HeaderPriority) :
    Except Panic (Option HeaderRequest) :=
  match event with
  | none => .ok none
  | some event =>
    match manager.getRoutesFromPathAndMethod event.path event.method with
    | none => .ok none
    | some (route, _) =>
      let response := processHandler answers.fileLen (answers.response manager event)
      match route.method with
      | .GET => (finalHeader answers response event.isEnd headerPriority).map some
      | .POST => (finalHeader answers response true .sendAdditionnalHeader).map some
      | .DELETE => (finalHeader answers response true .sendAdditionnalHeader).map some
      | .PUT => .ok none

/-- What the network thread makes of a final header: the headers end the stream, or a
body of positive length follows, and not both. -/
def EndsStream (file : FileAnswers) (header : HeaderRequest) : Prop :=
  ∃ len, header.attachedBodyLen file = .ok len ∧
    Xor (responseEndsOnHeaders header.isEnd len = true) ((nonEmptyAttachedBody len).isSome = true)

/-- A body that is not a file, or one that can be opened when its header is sent. -/
def RouteResponse.FileReadable (file : FileAnswers) : RouteResponse → Prop
  | .ok200File _ => file.len.isSome = true
  | _ => True

/-! ## What a final header carries -/

/-- What the network thread makes of a body it can measure. -/
theorem ends_or_body (len : Option Nat) (isEnd : Bool) (h : len.isSome = true → isEnd = false) :
    Xor (responseEndsOnHeaders isEnd len = true) ((nonEmptyAttachedBody len).isSome = true) ↔
      (len = none → isEnd = true) := by
  cases len with
  | none => simp [responseEndsOnHeaders, nonEmptyAttachedBody, xor_def]
  | some len =>
    obtain rfl := h rfl
    cases len <;> simp [responseEndsOnHeaders, nonEmptyAttachedBody, xor_def]

/-- The body that is attached to the answer of the handlers. -/
theorem buildResponse_snd (fileLen : String → Nat) (response : RouteResponse) (sender : ChunkSender) :
    (buildResponse (some ((processHandler fileLen response).attachChunkSender sender))).2 =
      match response with
      | .ok200 => none
      | .ok200File path => some (.filePath path (some sender))
      | .ok200Data data | .ok200Json data | .error409 data | .error503 data | .error403 data
      | .error401 data | .error422 data | .error428 data => some (.data data (some sender)) := by
  cases response <;> rfl

/-- The final header of an answer ends its stream, unless its file cannot be opened any
more or it has no body and its headers do not end the stream. -/
theorem finalHeader_ends {answers : PreparationAnswers H W} {response : RouteResponse} {isEnd : Bool}
    {priorityMode : HeaderPriority} {header : HeaderRequest}
    (h : finalHeader answers (processHandler answers.fileLen response) isEnd priorityMode = .ok header)
    (file : FileAnswers) :
    EndsStream file header ↔
      response.FileReadable file ∧ (response = .ok200 → isEnd = true) := by
  unfold finalHeader at h
  cases hsender : answers.bodySender with
  | none => simp [hsender] at h
  | some sender =>
    have hbody := buildResponse_snd answers.fileLen response sender
    simp only [hsender] at h
    unfold EndsStream HeaderRequest.attachedBodyLen
    cases response with
    | ok200 =>
      simp only [hbody, Except.ok.injEq] at h
      subst h
      simp [RouteResponse.FileReadable, ends_or_body]
    | ok200File path =>
      simp only [hbody, Except.ok.injEq] at h
      subst h
      cases hlen : file.len <;> simp [RouteResponse.FileReadable, BodyType.bytesLen, hlen, ends_or_body]
    | _ =>
      simp only [hbody, Except.ok.injEq] at h
      subst h
      simp [RouteResponse.FileReadable, BodyType.bytesLen, ends_or_body]

/-! ## The flag of the request -/

/-- A body packet is stored in the entry of `id`. -/
def Stores (id : ReqId) (s : State M H L C W ω) : Action L W ω → Prop
  | .dataWrite _ => s.network = .entered id ∧ ∃ entry body,
      s.shared.table id = some entry ∧ entry.dataManagementType = some (.storage body)
  | _ => False

/-- The worker of a section enters `id` anew, after headers that no frames follow. -/
def EntersEnded (id : ReqId) (s : State M H L C W ω) : Action L W ω → Prop
  | .create number _ _ => s.shared.table id = none ∧ ∃ job headers,
      s.jobs number = some (.creating job headers) ∧ job.message.id = id ∧
        (job.accepted headers).moreFrames = false
  | _ => False

theorem toRouteEvent_isEnd (entry : PartialReq L W) (id : ReqId) (scid : Bytes) :
    (entry.toRouteEvent id scid).1.isEnd = entry.isEnd ∧
      ∀ event, (entry.toRouteEvent id scid).2.1 = some event → event.isEnd = entry.isEnd := by
  unfold PartialReq.toRouteEvent
  split
  · exact ⟨rfl, fun event h => by cases h; rfl⟩
  · exact ⟨rfl, fun event h => by cases h⟩

theorem flush_isEnd (entry : PartialReq L W) :
    entry.flushAndPrefixWithTempBufferIfAnyBytes.1.isEnd = entry.isEnd := by
  unfold PartialReq.flushAndPrefixWithTempBufferIfAnyBytes
  split
  · rfl
  dsimp only
  split
  · split <;> rfl
  · rfl

theorem buildRouteEvent_isEnd (entry : PartialReq L W) (id : ReqId) (scid : Bytes) :
    (entry.buildRouteEvent id scid).1.isEnd = entry.isEnd ∧
      ∀ event, (entry.buildRouteEvent id scid).2.1 = some event → event.isEnd = entry.isEnd := by
  unfold PartialReq.buildRouteEvent
  dsimp only
  split
  · rw [← flush_isEnd entry]
    exact toRouteEvent_isEnd _ id scid
  · exact toRouteEvent_isEnd _ id scid

/-- A packet clears the flag of an entry that stores it, and no other one. -/
theorem writeBodyPacket_isEnd (entry : PartialReq L W) (packet : Bytes) :
    (entry.writeBodyPacket packet false).1.isEnd = true ↔
      entry.isEnd = true ∧ ¬ ∃ body, entry.dataManagementType = some (.storage body) := by
  unfold PartialReq.writeBodyPacket
  cases hkind : entry.dataManagementType with
  | none => simp
  | some kind =>
    cases kind with
    | stream => simp
    | storage body =>
      cases body with
      | inMemory => simp [PartialReq.extendData]
      | file =>
        have hcleared : ∀ entry : PartialReq L W, (entry.writeFile packet false).1.isEnd = false := by
          intro entry
          unfold PartialReq.writeFile
          dsimp only
          split <;> rfl
        simp [hcleared]

/-- The entry of `id` is there, and its headers ended the request. -/
def Ended (s : State M H L C W ω) (id : ReqId) : Prop :=
  ∃ entry, s.shared.table id = some entry ∧ entry.isEnd = true

theorem ended_of_map {s t : State M H L C W ω} {id : ReqId} {f : PartialReq L W → PartialReq L W}
    (h : t.shared.table id = (s.shared.table id).map f) (hf : ∀ entry, (f entry).isEnd = entry.isEnd) :
    Ended t id ↔ Ended s id := by
  unfold Ended
  rw [h]
  cases s.shared.table id <;> simp [hf]

variable [DecidableEq ω] {config : ServerConfig} {form404 : Option ErrorForm}
  {manager : RouteManager M H L C} {s t : State M H L C W ω} {a : Action L W ω} {id : ReqId}

/-- The flag is set where headers that end the request enter it, and cleared by a
stored packet and with the entry. -/
theorem ended_step (h : GateInv manager s) (hstep : step config form404 manager s a = some t) :
    Ended t id ↔ EntersEnded id s a ∨ (Ended s id ∧ ¬ Stores id s a ∧ ¬ Erases id s a) := by
  cases step_entry h hstep id with
  | same untouched table =>
    have henters : ¬ EntersEnded id s a := by
      cases a <;> intro he <;> first | exact he | skip
      obtain ⟨-, job, headers, hold, hid, -⟩ := he
      exact untouched ⟨_, hold, hid⟩
    have hstores : ¬ Stores id s a := by
      cases a <;> intro he <;> first | exact he | exact untouched he.1
    have herases : ¬ Erases id s a := by
      cases a <;> intro he <;> first | exact he | exact untouched he
    simp [Ended, table, henters, hstores, herases]
  | set network table =>
    simp only [EntersEnded, Stores, Erases, Ended, table, Table.setRequestInTable]
    cases hentry : s.shared.table id <;> simp [hentry, PartialReq.new]
  | @packet packet network table =>
    simp only [EntersEnded, Stores, Erases, Ended, table, Table.writeBodyPacket, network]
    cases hentry : s.shared.table id with
    | none => simp [hentry]
    | some entry => simp [writeBodyPacket_isEnd]
  | completed job_eq id_eq table =>
    simpa [EntersEnded, Stores, Erases] using ended_of_map table fun _ => rfl
  | found job_eq id_eq table =>
    simpa [EntersEnded, Stores, Erases] using ended_of_map table fun _ => rfl
  | @created number uuid file job headers job_eq id_eq table =>
    have hstorage := newEntryStorage_ne_none config headers uuid
      (FileWriterPool.createStorage_ne_handleFailed s.pool id
        (newRequestAttributes manager job.path job.method).1 file)
      (newRequestAttributes manager job.path job.method).1
    obtain ⟨storage, hstorage⟩ := Option.ne_none_iff_exists'.mp hstorage
    simp only [EntersEnded, Stores, Erases, Ended, table, Table.addPartialRequestAbsent, hstorage]
    cases hentry : s.shared.table id with
    | none => simp [PartialReq.new, job_eq, id_eq]
    | some entry => simp [PartialReq.fill]
  | taken worker table =>
    simpa [EntersEnded, Stores, Erases] using
      ended_of_map table fun entry => (buildRouteEvent_isEnd entry _ _).1
  | erased erases table => simp [EntersEnded, Erases, erases, Ended, table]

/-- In the run, the entry of `id` was entered after headers that no frames follow, and
since then no body packet was stored in it and it was not removed. -/
def EndedWithHeaders (config : ServerConfig) (form404 : Option ErrorForm)
    (manager : RouteManager M H L C) (as : List (Action L W ω)) (id : ReqId) : Prop :=
  Since (step config form404 manager) (EntersEnded id)
    (fun s a => ¬ Stores id s a ∧ ¬ Erases id s a) (init manager) as

theorem ended_iff {as : List (Action L W ω)}
    (hrun : exec (step config form404 manager) (init manager) as = some s) :
    Ended s id ↔ EndedWithHeaders config form404 manager as id := by
  induction as using List.reverseRecOn generalizing s with
  | nil =>
    cases hrun
    exact ⟨fun ⟨_, hentry, _⟩ => (by cases hentry), fun h => absurd h not_since_nil⟩
  | append_singleton as a ih =>
    rw [exec_snoc] at hrun
    obtain ⟨u, hu, hstep⟩ := Option.bind_eq_some_iff.mp hrun
    have hgate : GateInv manager u := exec_invariant gateInv_init (fun _ _ _ => gateInv_step) hu
    rw [ended_step hgate hstep, ih hu]
    exact (since_snoc hu hstep).symm

/-- The final header of a request that was finished and taken by a response worker ends
its stream exactly when the file of the answer can still be opened, and a GET that is
answered without a body was ended by its headers. -/
theorem response_ends_iff {as : List (Action L W ω)} {scid : Bytes} {event : FinishedEvent W}
    {answers : PreparationAnswers H W} {header : HeaderRequest}
    (hrun : exec (step config form404 manager) (init manager) as = some s)
    (hevent : ((s.shared.table id).bind fun entry => (entry.buildRouteEvent id scid).2.1) = some event)
    (hqueued : responsePreparation manager answers (some event) .sendAdditionnalHeader =
      .ok (some header)) (file : FileAnswers) :
    EndsStream file header ↔ (answers.response manager event).FileReadable file ∧
      (event.method = .GET → answers.response manager event = .ok200 →
        EndedWithHeaders config form404 manager as id) := by
  obtain ⟨entry, hentry, hbuilt⟩ := Option.bind_eq_some_iff.mp hevent
  have hflag : event.isEnd = true ↔ EndedWithHeaders config form404 manager as id := by
    rw [(buildRouteEvent_isEnd entry id scid).2 event hbuilt, ← ended_iff hrun]
    simp [Ended, hentry]
  unfold responsePreparation at hqueued
  cases hroute : manager.getRoutesFromPathAndMethod event.path event.method with
  | none => simp [hroute] at hqueued
  | some found =>
    have hmethod : found.1.method = event.method := by
      obtain ⟨route, hfind, rfl⟩ := Option.map_eq_some_iff.mp hroute
      exact (RouteTable.find_some hfind).2.1
    simp only [hroute, hmethod] at hqueued
    have hends : ∀ {isEnd : Bool}, (finalHeader answers (processHandler answers.fileLen
        (answers.response manager event)) isEnd .sendAdditionnalHeader).map some = .ok (some header) →
        (EndsStream file header ↔ (answers.response manager event).FileReadable file ∧
          (answers.response manager event = .ok200 → isEnd = true)) := by
      intro isEnd hmap
      cases hfinal : finalHeader answers (processHandler answers.fileLen
          (answers.response manager event)) isEnd .sendAdditionnalHeader with
      | error panic => simp [hfinal, Except.map] at hmap
      | ok final =>
        simp only [hfinal, Except.map, Except.ok.injEq, Option.some.injEq] at hmap
        subst hmap
        exact finalHeader_ends hfinal file
    cases hm : event.method with
    | GET =>
      simp only [hm] at hqueued
      rw [hends hqueued, hflag]
      simp
    | POST | DELETE =>
      simp only [hm] at hqueued
      rw [hends hqueued]
      simp
    | PUT => simp [hm] at hqueued

/-! ## A request whose end comes after its headers -/

/-- A GET request of stream 0, passed by its middleware, finished, and taken by the
response worker. -/
def getTaken (moreFrames : Bool) : List (Action Unit Unit Unit) :=
  [.headers { section0 (getRequest "/a") with moreFrames }, .processHeader] ++
    calledOnce 0 (.ok (.continued (getRequest "/a"))) ++ accepted 0 ++
  [.finished ("c", 0) [1], .protocol (.pick ()), .protocol (.removeIf ())]

/-- The handler answers with a plain 200. -/
def answered200 : PreparationAnswers Unit Unit where
  call _ event _ := (event, .ok200)
  fileLen _ := 0
  bodySender := some 0

/-- The event the response worker builds of the request, and the final header. -/
def preparedOf (s : State Unit Unit Unit Unit Unit Unit) :
    Option (FinishedEvent Unit × HeaderRequest) :=
  ((s.shared.table ("c", 0)).bind fun entry => (entry.buildRouteEvent ("c", 0) [1]).2.1).bind fun event =>
    match responsePreparation guardedRoute answered200 (some event) .sendAdditionnalHeader with
    | .ok header => header.map fun header => (event, header)
    | .error _ => none

theorem preparedOf_eq_some {s : State Unit Unit Unit Unit Unit Unit}
    {prepared : FinishedEvent Unit × HeaderRequest} (h : preparedOf s = some prepared) :
    ((s.shared.table ("c", 0)).bind fun entry => (entry.buildRouteEvent ("c", 0) [1]).2.1) =
        some prepared.1 ∧
      responsePreparation guardedRoute answered200 (some prepared.1) .sendAdditionnalHeader =
        .ok (some prepared.2) := by
  obtain ⟨event, hevent, hprepared⟩ := Option.bind_eq_some_iff.mp h
  split at hprepared
  · rename_i header hqueued
    obtain ⟨header, rfl, rfl⟩ := Option.map_eq_some_iff.mp hprepared
    exact ⟨hevent, hqueued⟩
  · cases hprepared

/-- A GET that ended with its headers: the header of its plain 200 ends the stream. -/
theorem response_ends_iff_ended : ∃ (s : State Unit Unit Unit Unit Unit Unit)
    (prepared : FinishedEvent Unit × HeaderRequest),
    exec (step ⟨⟨[]⟩⟩ none guardedRoute) (init guardedRoute) (getTaken false) = some s ∧
      preparedOf s = some prepared ∧ EndsStream {} prepared.2 ∧ (EndsStream {} prepared.2 ↔
        (answered200.response guardedRoute prepared.1).FileReadable {} ∧
          (prepared.1.method = .GET → answered200.response guardedRoute prepared.1 = .ok200 →
            EndedWithHeaders ⟨⟨[]⟩⟩ none guardedRoute (getTaken false) ("c", 0))) := by
  have hrun : ((exec (step ⟨⟨[]⟩⟩ none guardedRoute)
      (init guardedRoute : State Unit Unit Unit Unit Unit Unit) (getTaken false)).any fun s =>
      (preparedOf s).any fun prepared => prepared.2.isEnd && prepared.2.attachedBody.isNone) = true := by
    decide +kernel
  obtain ⟨s, hs, hlast⟩ := Option.any_eq_true _ _ |>.mp hrun
  obtain ⟨prepared, hprepared, hends⟩ := Option.any_eq_true _ _ |>.mp hlast
  obtain ⟨hevent, hqueued⟩ := preparedOf_eq_some hprepared
  obtain ⟨hflag, hbody⟩ := Bool.and_eq_true_iff.mp hends
  have hlen : prepared.2.attachedBodyLen {} = .ok none := by
    rw [HeaderRequest.attachedBodyLen, Option.isNone_iff_eq_none.mp hbody]
  have hstream : EndsStream {} prepared.2 :=
    ⟨none, hlen, .inl ⟨by rw [hflag]; rfl, by simp [nonEmptyAttachedBody]⟩⟩
  exact ⟨s, prepared, hs, hprepared, hstream, response_ends_iff hs hevent hqueued {}⟩

/-- A GET whose end of stream comes after its headers, answered with a plain 200. -/
theorem response_left_open : ∃ (s : State Unit Unit Unit Unit Unit Unit)
    (prepared : FinishedEvent Unit × HeaderRequest),
    exec (step ⟨⟨[]⟩⟩ none guardedRoute) (init guardedRoute) (getTaken true) = some s ∧
      s.shared.workers () = .taken ("c", 0) 0 3 ∧ preparedOf s = some prepared ∧
      ¬ EndsStream {} prepared.2 := by
  have hrun : ((exec (step ⟨⟨[]⟩⟩ none guardedRoute)
      (init guardedRoute : State Unit Unit Unit Unit Unit Unit) (getTaken true)).any fun s =>
      decide (s.shared.workers () = .taken ("c", 0) 0 3) && (preparedOf s).any fun prepared =>
        !prepared.2.isEnd && prepared.2.attachedBody.isNone) = true := by
    decide +kernel
  obtain ⟨s, hs, hlast⟩ := Option.any_eq_true _ _ |>.mp hrun
  obtain ⟨hworker, hlast⟩ := Bool.and_eq_true_iff.mp hlast
  obtain ⟨prepared, hprepared, hopen⟩ := Option.any_eq_true _ _ |>.mp hlast
  obtain ⟨hflag, hbody⟩ := Bool.and_eq_true_iff.mp hopen
  refine ⟨s, prepared, hs, of_decide_eq_true hworker, hprepared, ?_⟩
  intro ⟨len, hlen, hends⟩
  have hflag : prepared.2.isEnd = false := by simpa using hflag
  have hbody : prepared.2.attachedBody = none := by simpa using hbody
  simp only [HeaderRequest.attachedBodyLen, hbody, Except.ok.injEq] at hlen
  subst hlen
  simp [responseEndsOnHeaders, nonEmptyAttachedBody, hflag] at hends

end FacesHttp3.Server
