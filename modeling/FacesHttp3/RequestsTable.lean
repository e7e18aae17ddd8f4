import FacesHttp3.Router

/-! # The table of requests being received

A request is entered by the network thread on its first body packet or by the
middleware worker when its middlewares continued, whichever comes first, and is
turned into an event for its handler when it is finished. Every definition here
is one access to the table; the file writers it reaches are named by references
`W` and what happens to them is returned as effects, in order. -/

namespace FacesHttp3.RequestsTable
open FacesHttp3.Lib FacesHttp3.Request FacesHttp3.Router

/-- A path as the operating system has it: any bytes. -/
structure OsPath where
  bytes : Bytes
  deriving DecidableEq

/-- `PathBuf::push` of a relative name. -/
def OsPath.push (path : OsPath) (name : String) : OsPath :=
  ⟨path.bytes ++ (if path.bytes.isEmpty || path.bytes.getLast? == some 47 then [] else [47]) ++
    name.toUTF8.toList⟩

def OsPath.toStr (path : OsPath) : Option String := fromUtf8 path.bytes

structure ServerConfig where
  fileStoragePath : OsPath

/-- How the creation of a storage file went: the file and its writer, no file, or
a file without a writer. -/
inductive FileCreation (W : Type)
  | created (writer : W)
  | createFailed
  | handleFailed

/-- What an access does to the writers and the listeners. -/
inductive Effect (L W : Type)
  | onData (listener : L) (packet : Bytes) (isEnd : Bool)
  | associateStreamWithNextListener
  | transfertBytesFromTempFile (writer : W) (storagePath : String) (bytes : Bytes)
  | sendWritableItem (writer : W) (data : Bytes)
  | finishReceived (writer : W) (received : Nat)

structure PartialReq (L W : Type) where
  headers : Option (List Header)
  method : Option H3Method
  dataManagementType : Option DataManagement
  eventSubscriber : Option L
  storagePath : Option OsPath
  fileOpened : Option W
  path : Option String
  args : Option ReqArgs
  bodyWrittenSize : Nat
  contentLength : Option Nat
  progressHeaderSent : Bool
  body : Bytes
  isEnd : Bool

/-- The event a handler receives. -/
structure FinishedEvent (W : Type) where
  id : ReqId
  scid : Bytes
  path : String
  method : H3Method
  headers : List Header
  args : Option ReqArgs
  filePath : Option OsPath
  writer : Option W
  bytesWritten : Nat
  body : Option Bytes
  isEnd : Bool

variable {M H L C W : Type}

namespace PartialReq

/-- Without a path no header was read yet: headers and method are dropped too. -/
def new (method : Option H3Method) (dataManagementType : Option DataManagement)
    (eventSubscriber : Option L) (storagePath : Option OsPath) (fileOpened : Option W)
    (headers : List Header) (path : Option String) (contentLength : Option Nat) (isEnd : Bool) :
    PartialReq L W :=
  match path with
  | some path =>
    let (path, args) := ReqArgs.parseArgs path
    { headers := some headers, method, dataManagementType, eventSubscriber, storagePath, fileOpened,
      path := some path, args, bodyWrittenSize := 0, contentLength, progressHeaderSent := false,
      body := [], isEnd }
  | none =>
    { headers := none, method := none, dataManagementType, eventSubscriber, storagePath, fileOpened,
      path := none, args := none, bodyWrittenSize := 0, contentLength, progressHeaderSent := false,
      body := [], isEnd }

/-- Move the bytes received before the file existed in front of it. They are
taken out of the buffer first, whatever becomes of them. -/
def flushAndPrefixWithTempBufferIfAnyBytes (entry : PartialReq L W) :
    PartialReq L W × List (Effect L W) :=
  if entry.body.isEmpty then (entry, [])
  else
    let firstBytes := entry.body
    let entry := { entry with body := [] }
    match entry.storagePath, entry.fileOpened with
    | some storagePath, some writer =>
      match storagePath.toStr with
      | some storagePathStr =>
        (entry, [.transfertBytesFromTempFile writer storagePathStr firstBytes])
      | none => (entry, [])
    | _, _ => (entry, [])

def writeFile (entry : PartialReq L W) (packet : Bytes) (isEnd : Bool) :
    PartialReq L W × List (Effect L W) :=
  let entry := { entry with isEnd }
  match entry.fileOpened with
  | some writer =>
    ({ entry with bodyWrittenSize := entry.bodyWrittenSize + packet.length },
      [.sendWritableItem writer packet])
  | none => (entry, [])

def extendData (entry : PartialReq L W) (packet : Bytes) (isEnd : Bool) : PartialReq L W :=
  { entry with
    isEnd
    bodyWrittenSize := entry.bodyWrittenSize + packet.length
    body := entry.body ++ packet }

def onData (entry : PartialReq L W) (packet : Bytes) (isEnd : Bool) : List (Effect L W) :=
  match entry.eventSubscriber with
  | some subscriber => [.onData subscriber packet isEnd]
  | none => []

/-- One body packet, by the way the request's data are managed at that time; the
result is the total received, or an error. -/
def writeBodyPacket (entry : PartialReq L W) (packet : Bytes) (isEnd : Bool) :
    PartialReq L W × Option Nat × List (Effect L W) :=
  match entry.dataManagementType with
  | none => (entry, none, [])
  | some .stream => (entry, none, entry.onData packet isEnd)
  | some (.storage .inMemory) =>
    let entry := entry.extendData packet isEnd
    (entry, some entry.bodyWrittenSize, [])
  | some (.storage .file) =>
    let subscribed := entry.onData packet isEnd
    let (entry, prefixed) := entry.flushAndPrefixWithTempBufferIfAnyBytes
    let (entry, queued) := entry.writeFile packet isEnd
    (entry, some entry.bodyWrittenSize,
      subscribed ++ .associateStreamWithNextListener :: (prefixed ++ queued))

/-- The event of a finished request: none before the headers were processed. The
final size is announced to the writer with it. -/
def toRouteEvent (entry : PartialReq L W) (id : ReqId) (scid : Bytes) :
    PartialReq L W × Option (FinishedEvent W) × List (Effect L W) :=
  match entry.method, entry.headers, entry.path with
  | some method, some headers, some path =>
    let finished := match entry.fileOpened with
      | some writer => [.finishReceived writer entry.bodyWrittenSize]
      | none => []
    let event :=
      { id, scid, path, method, headers, args := entry.args, filePath := entry.storagePath,
        writer := entry.fileOpened, bytesWritten := entry.bodyWrittenSize, body := some entry.body,
        isEnd := entry.isEnd }
    ({ entry with args := none, fileOpened := none, body := [] }, some event, finished)
  | _, _, _ => (entry, none, [])

/-- The table's part of `build_route_event`, before the entry is removed. -/
def buildRouteEvent (entry : PartialReq L W) (id : ReqId) (scid : Bytes) :
    PartialReq L W × Option (FinishedEvent W) × List (Effect L W) :=
  let (entry, prefixed) := match entry.dataManagementType with
    | some (.storage .file) => entry.flushAndPrefixWithTempBufferIfAnyBytes
    | _ => (entry, [])
  let (entry, event, finished) := entry.toRouteEvent id scid
  (entry, event, prefixed ++ finished)

/-- What a request that was entered by its first packet is told by its headers. -/
structure Completion (L W : Type) where
  method : H3Method
  path : String
  headers : List Header
  contentLength : Option Nat
  dataManagementType : Option DataManagement
  eventSubscriber : Option L
  storagePath : Option OsPath
  fileOpen : Option W

def complete (completion : Completion L W) (entry : PartialReq L W) : PartialReq L W :=
  { entry with
    method := some completion.method
    path := some completion.path
    eventSubscriber := completion.eventSubscriber
    dataManagementType := completion.dataManagementType
    storagePath := completion.storagePath
    fileOpened := completion.fileOpen
    contentLength := completion.contentLength
    headers := some completion.headers }

/-- `add_partial_request` on an entry that exists: the data management stays. -/
def fill (method : H3Method) (path : String) (headers : List Header) (contentLength : Option Nat)
    (entry : PartialReq L W) : PartialReq L W :=
  { entry with
    headers := some headers
    path := some path
    contentLength
    method := some method }

end PartialReq

/-- The table, one record for each request. -/
abbrev Table (L W : Type) := PMap ReqId (PartialReq L W)

def storageFileName (headers : List Header) (uuid : String) : String :=
  match headers.find? fun header => header.name == ascii "content-type" with
  | some contentType => if contentType.value = ascii "text/plain" then uuid ++ ".txt" else uuid
  | none => uuid

/-- Storage path and writer of a completed entry: none unless both exist. -/
def buildTempStageFileStoragePath (config : ServerConfig) (headers : List Header) (uuid : String)
    (creation : FileCreation W) (dataManagementType : Option DataManagement) :
    Option (OsPath × W) :=
  match dataManagementType.bind DataManagement.isBodyStorage with
  | some .file =>
    match creation with
    | .created writer => some (config.fileStoragePath.push (storageFileName headers uuid), writer)
    | .createFailed => none
    | .handleFailed => none
  | some .inMemory => none
  | none => none

/-- Storage path and writer of a new entry: the path stays when no file could be
created, and without a writer the entry is given up (`none`). -/
def newEntryStorage (config : ServerConfig) (headers : List Header) (uuid : String)
    (creation : FileCreation W) (dataManagementType : Option DataManagement) :
    Option (Option OsPath × Option W) :=
  match dataManagementType.bind DataManagement.isBodyStorage with
  | some .file =>
    let path := config.fileStoragePath.push (storageFileName headers uuid)
    match creation with
    | .created writer => some (some path, some writer)
    | .createFailed => some (some path, none)
    | .handleFailed => none
  | some .inMemory => some (none, none)
  | none => some (none, none)

namespace Table

def isEntryPartialReponseSet (table : Table L W) (id : ReqId) : Bool := (table id).isSome

/-- `set_request_in_table`: the entry of a request whose headers are still being
processed, in memory until they are. -/
def setRequestInTable (table : Table L W) (id : ReqId) : Table L W :=
  table.orInsert id (PartialReq.new none (some default) none none none [] none none false)

def completeRequestEntryInTable (table : Table L W) (id : ReqId)
    (completion : PartialReq.Completion L W) : Table L W :=
  table.modify id (PartialReq.complete completion)

/-- The first lookup of `add_partial_request`: an entry found is filled in and
nothing else is done (`none`: go on to create one). -/
def addPartialRequestFound (table : Table L W) (id : ReqId) (method : H3Method)
    (headers : List Header) (path : String) (contentLength : Option Nat) : Option (Table L W) :=
  (table id).map fun _ => table.modify id (PartialReq.fill method path headers contentLength)

/-- What `add_partial_request` does after its first lookup found nothing: an
entry that came in between is filled in. -/
def addPartialRequestAbsent (table : Table L W) (config : ServerConfig) (id : ReqId)
    (method : H3Method) (dataManagementType : Option DataManagement) (eventSubscriber : Option L)
    (headers : List Header) (path : String) (contentLength : Option Nat) (isEnd : Bool)
    (uuid : String) (creation : FileCreation W) : Table L W :=
  match newEntryStorage config headers uuid creation dataManagementType with
  | none => table
  | some (storagePath, fileOpened) =>
    match table id with
    | some entry => table.insert id (entry.fill method path headers contentLength)
    | none => table.insert id (PartialReq.new (some method) dataManagementType eventSubscriber
        storagePath fileOpened headers (some path) contentLength isEnd)

/-- A packet for a request that is not entered is an error. -/
def writeBodyPacket (table : Table L W) (id : ReqId) (packet : Bytes) (isEnd : Bool) :
    Table L W × Option Nat × List (Effect L W) :=
  match table id with
  | some entry =>
    let (entry, written, effects) := entry.writeBodyPacket packet isEnd
    (table.insert id entry, written, effects)
  | none => (table, none, [])

end Table

/-! ## The middleware worker's accesses -/

def getAdditionnalAttributes (manager : RouteManager M H L C) (path : String) (method : H3Method) :
    Option DataManagement × Option L :=
  match manager.getRoutesFromPathAndMethod path method with
  | some (route, _) => (route.dataManagementType, route.eventSubscriber)
  | none => (none, none)

/-- What the worker knows of a request it completes. -/
structure Accepted where
  path : String
  method : H3Method
  headers : List Header
  contentLength : Option Nat
  moreFrames : Bool

/-- `complete_request_entry_in_table` with the storage its data management asks for. -/
def completion (config : ServerConfig) (request : Accepted) (uuid : String)
    (creation : FileCreation W) (attributes : Option DataManagement × Option L) :
    PartialReq.Completion L W :=
  let storage := buildTempStageFileStoragePath config request.headers uuid creation attributes.1
  { method := request.method
    path := request.path
    headers := request.headers
    contentLength := request.contentLength
    dataManagementType := attributes.1
    eventSubscriber := attributes.2
    storagePath := storage.map Prod.fst
    fileOpen := storage.map Prod.snd }

/-- The attributes `create_new_request_in_table` enters a request with. -/
def newRequestAttributes (manager : RouteManager M H L C) (path : String) (method : H3Method) :
    Option DataManagement × Option L :=
  match manager.getRoutesFromPathAndMethod path method with
  | some (route, _) => (route.dataManagementType, route.eventSubscriber)
  | none => (some (.storage .inMemory), none)

theorem getAdditionnalAttributes_of_found {manager : RouteManager M H L C} {path : String}
    {method : H3Method} {route : RouteForm M H L} {args : Option ReqArgs}
    (h : manager.getRoutesFromPathAndMethod path method = some (route, args)) :
    getAdditionnalAttributes manager path method =
      (route.dataManagementType, route.eventSubscriber) := by
  simp [getAdditionnalAttributes, h]

theorem newRequestAttributes_of_found {manager : RouteManager M H L C} {path : String}
    {method : H3Method} {route : RouteForm M H L} {args : Option ReqArgs}
    (h : manager.getRoutesFromPathAndMethod path method = some (route, args)) :
    newRequestAttributes manager path method =
      (route.dataManagementType, route.eventSubscriber) := by
  simp [newRequestAttributes, h]

/-! ## What the accesses leave alone -/

/-- The part of an entry that headers decide. -/
structure Head (W : Type) where
  path : Option String
  args : Option ReqArgs
  method : Option H3Method
  headers : Option (List Header)
  storagePath : Option OsPath
  fileOpened : Option W

def PartialReq.head (entry : PartialReq L W) : Head W :=
  ⟨entry.path, entry.args, entry.method, entry.headers, entry.storagePath, entry.fileOpened⟩

@[simp] theorem flush_head (entry : PartialReq L W) :
    entry.flushAndPrefixWithTempBufferIfAnyBytes.1.head = entry.head := by
  unfold PartialReq.flushAndPrefixWithTempBufferIfAnyBytes
  split
  · rfl
  · dsimp only
    split
    · split <;> rfl
    · rfl

@[simp] theorem flush_dataManagementType (entry : PartialReq L W) :
    entry.flushAndPrefixWithTempBufferIfAnyBytes.1.dataManagementType =
      entry.dataManagementType := by
  unfold PartialReq.flushAndPrefixWithTempBufferIfAnyBytes
  split
  · rfl
  · dsimp only
    split
    · split <;> rfl
    · rfl

@[simp] theorem writeFile_head (entry : PartialReq L W) (packet : Bytes) (isEnd : Bool) :
    (entry.writeFile packet isEnd).1.head = entry.head := by
  unfold PartialReq.writeFile
  dsimp only
  split <;> rfl

/-- A body packet changes nothing the headers decide. -/
@[simp] theorem writeBodyPacket_head (entry : PartialReq L W) (packet : Bytes) (isEnd : Bool) :
    (entry.writeBodyPacket packet isEnd).1.head = entry.head := by
  unfold PartialReq.writeBodyPacket
  split
  · rfl
  · rfl
  · rfl
  · simp

/-! ## Events -/

def eventHead (event : FinishedEvent W) : Head W :=
  ⟨some event.path, event.args, some event.method, some event.headers, event.filePath, event.writer⟩

/-- A head an event can be made of. -/
def Head.Full (head : Head W) : Prop :=
  head.method.isSome ∧ head.headers.isSome ∧ head.path.isSome

theorem toRouteEvent_head (entry : PartialReq L W) (id : ReqId) (scid : Bytes)
    (event : FinishedEvent W) :
    (entry.toRouteEvent id scid).2.1 = some event → eventHead event = entry.head := by
  unfold PartialReq.toRouteEvent PartialReq.head
  cases entry.method <;> cases entry.headers <;> cases entry.path <;> intro h <;> cases h
  rfl

theorem toRouteEvent_isSome (entry : PartialReq L W) (id : ReqId) (scid : Bytes) :
    (entry.toRouteEvent id scid).2.1.isSome ↔ entry.head.Full := by
  unfold PartialReq.toRouteEvent Head.Full PartialReq.head
  cases entry.method <;> cases entry.headers <;> cases entry.path <;> simp

/-- The entry an event is made of, and which stays behind without it: flushed first if
it is stored in a file, with the head of the table's entry. -/
theorem buildRouteEvent_flushed (entry : PartialReq L W) (id : ReqId) (scid : Bytes) :
    ∃ flushed : PartialReq L W, flushed.head = entry.head ∧
      (entry.buildRouteEvent id scid).1 = (flushed.toRouteEvent id scid).1 ∧
      (entry.buildRouteEvent id scid).2.1 = (flushed.toRouteEvent id scid).2.1 := by
  unfold PartialReq.buildRouteEvent
  dsimp only
  split
  · exact ⟨_, flush_head entry, rfl, rfl⟩
  · exact ⟨entry, rfl, rfl, rfl⟩

theorem eventHead_full (event : FinishedEvent W) : (eventHead event).Full := by
  simp [eventHead, Head.Full]

end FacesHttp3.RequestsTable
