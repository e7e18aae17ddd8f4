import FacesHttp3.EntryRace
import FacesHttp3.Server.Gate

/-! # Where the body goes

A packet of a body stays in the request's entry, is queued for a file writer or is
given to the listener of the route, and which of them depends on how far the
middleware worker was when it came. Here the packets of a request are interleaved in
every way with the worker of its header section, for every kind of route, up to the
event of the finished request. -/

namespace FacesHttp3.Listeners
open FacesHttp3.Lib FacesHttp3.Lib.Exec FacesHttp3.Request FacesHttp3.Router
open FacesHttp3.RequestsTable
open FacesHttp3.EntryRace (NetworkPc WorkerPc)
open FacesHttp3.Server (HeaderMessage MiddleWareJob headerWork headerWork_execute)

variable {M H L C W : Type}

/-- A section whose middlewares continued with `headers`, and how the creation of the
storage file goes. -/
structure Setting (M H L C W : Type) where
  config : ServerConfig
  manager : RouteManager M H L C
  message : HeaderMessage
  job : MiddleWareJob M
  headers : List Header
  uuid : String
  creation : FileCreation W
  work : headerWork manager message = .execute job

def Setting.id (w : Setting M H L C W) : ReqId := w.message.id

/-- The data management of the request and the listener it has. -/
def Setting.attributes (w : Setting M H L C W) : Option DataManagement × Option L :=
  newRequestAttributes w.manager w.job.path w.job.method

structure State (L W : Type) where
  table : Table L W := PMap.empty
  network : NetworkPc := .idle
  worker : WorkerPc := .start
  effects : List (Effect L W) := []
  finished : Bool := false
  event : Option (FinishedEvent W) := none

inductive Action
  | dataCheck
  | dataSet
  | dataWrite (packet : Bytes)
  | workerCheck
  | workerComplete
  | workerLookup
  | workerCreate
  | buildRouteEvent

/-- `build_route_event`, which removes the entry. -/
def State.finish (w : Setting M H L C W) (s : State L W) : State L W :=
  match s.table w.id with
  | some entry =>
    let (_, event, effects) := entry.buildRouteEvent w.id w.message.scid
    { s with table := s.table.erase w.id, effects := s.effects ++ effects, finished := true, event }
  | none => { s with finished := true }

/-- One access of one thread. Network: `is_request_set_in_table`,
`set_request_in_table` when it is not, `write_body_packet`. Worker: the same question,
then `complete_request_entry_in_table`, or the two accesses of
`create_new_request_in_table`. The event is built when the worker has reported the
request and its stream has ended. -/
def step (w : Setting M H L C W) (s : State L W) : Action → Option (State L W)
  | .dataCheck => guarded (s.network = .idle ∧ s.finished = false) <|
    { s with network := if s.table.isEntryPartialReponseSet w.id then .entered else .missing }
  | .dataSet => guarded (s.network = .missing) <|
    { s with table := s.table.setRequestInTable w.id, network := .entered }
  | .dataWrite packet => guarded (s.network = .entered) <|
    let (table, _, effects) := s.table.writeBodyPacket w.id packet false
    { s with table, effects := s.effects ++ effects, network := .idle }
  | .workerCheck => guarded (s.worker = .start) <|
    { s with worker := .checked (s.table.isEntryPartialReponseSet w.id) }
  | .workerComplete => guarded (s.worker = .checked true) <|
    { s with
      table := s.table.completeRequestEntryInTable w.id
        (completion w.config (w.job.accepted w.headers) w.uuid w.creation (w.job.attributes w.manager))
      worker := .written }
  | .workerLookup => guarded (s.worker = .checked false) <|
    match s.table.addPartialRequestFound w.id w.job.method w.headers w.job.path w.job.contentLength with
    | some table => { s with table, worker := .written }
    | none => { s with worker := .creating }
  | .workerCreate => guarded (s.worker = .creating) <|
    { s with
      table := s.table.addPartialRequestAbsent w.config w.id w.job.method w.attributes.1 w.attributes.2
        w.headers w.job.path w.job.contentLength (!(w.job.accepted w.headers).moreFrames) w.uuid w.creation
      worker := .written }
  | .buildRouteEvent => guarded (s.worker = .written ∧ s.network = .idle ∧ s.finished = false) (s.finish w)

/-- The packets a run has written. -/
def packetsOf (as : List Action) : List Bytes :=
  as.filterMap fun
    | .dataWrite packet => some packet
    | _ => none

theorem packetsOf_append (as bs : List Action) : packetsOf (as ++ bs) = packetsOf as ++ packetsOf bs :=
  List.filterMap_append

/-! ## Places -/

/-- The packet a listener is given. -/
def heardIn : Effect L W → Option Bytes
  | .onData _ packet _ => some packet
  | _ => none

/-- What a file writer is given. -/
def filedIn : Effect L W → Bytes
  | .transfertBytesFromTempFile _ _ bytes => bytes
  | .sendWritableItem _ data => data
  | _ => []

def heard (effects : List (Effect L W)) : List Bytes := effects.filterMap heardIn

def filed (effects : List (Effect L W)) : Bytes := effects.flatMap filedIn

/-- What only the listener has: packets of a route that is not stored. -/
def passedOn (dataManagementType : Option DataManagement) (effects : List (Effect L W)) : Bytes :=
  if dataManagementType = some .stream then (heard effects).flatten else []

/-- The route streams to a listener, or stores where it can: a file needs a writer, and a
path that is read as text. -/
def Setting.Placeable (w : Setting M H L C W) : Prop :=
  match w.attributes.1 with
  | some .stream => w.attributes.2.isSome
  | some (.storage .inMemory) => True
  | some (.storage .file) => (∃ writer, w.creation = .created writer) ∧
    (w.config.fileStoragePath.push (storageFileName w.headers w.uuid)).toStr.isSome
  | none => False

/-- Every byte of the packets is in one place, in order: the file, the event and the
listener of a streamed route, one after another. Only the listener of the route hears of
packets, of the last ones, whole and never as the end. -/
structure EveryByteOnce (w : Setting M H L C W) (packets : List Bytes) (effects : List (Effect L W))
    (event : FinishedEvent W) : Prop where
  conserved : ∃ body, event.body = some body ∧
    filed effects ++ body ++ passedOn w.attributes.1 effects = packets.flatten ∧
    event.bytesWritten = (filed effects ++ body).length
  suffix : heard effects <:+ packets
  told : ∀ listener packet isEnd, .onData listener packet isEnd ∈ effects →
    w.attributes.2 = some listener ∧ isEnd = false

@[simp] theorem heard_append (effects more : List (Effect L W)) :
    heard (effects ++ more) = heard effects ++ heard more :=
  List.filterMap_append

@[simp] theorem filed_append (effects more : List (Effect L W)) :
    filed (effects ++ more) = filed effects ++ filed more :=
  List.flatMap_append

@[simp] theorem filed_cons (e : Effect L W) (more : List (Effect L W)) :
    filed (e :: more) = filedIn e ++ filed more :=
  List.flatMap_cons

@[simp] theorem filed_nil : filed ([] : List (Effect L W)) = [] := rfl

/-! ## An entry on its way -/

/-- The entry's packets have a place, as for the route. -/
def Placeable (entry : PartialReq L W) : Prop :=
  match entry.dataManagementType with
  | some .stream => entry.eventSubscriber.isSome
  | some (.storage .inMemory) => True
  | some (.storage .file) => entry.fileOpened.isSome ∧ (entry.storagePath.bind OsPath.toStr).isSome
  | none => False

/-- The packets so far are where they belong. -/
structure Carried (subscriber : Option L) (packets : List Bytes) (effects : List (Effect L W))
    (entry : PartialReq L W) : Prop where
  placeable : Placeable entry
  conserved : filed effects ++ entry.body ++ passedOn entry.dataManagementType effects = packets.flatten
  counted : entry.bodyWrittenSize = (filed effects ++ entry.body).length
  suffix : heard effects <:+ packets
  quiet : entry.eventSubscriber = none ∨ entry.dataManagementType = some (.storage .inMemory) →
    heard effects = []
  listener : ∀ l, entry.eventSubscriber = some l → subscriber = some l
  told : ∀ l packet isEnd, .onData l packet isEnd ∈ effects → subscriber = some l ∧ isEnd = false

section Entry
variable {subscriber : Option L} {packets : List Bytes} {effects : List (Effect L W)}
variable {entry : PartialReq L W}

theorem onData_none (h : entry.eventSubscriber = none) (packet : Bytes) :
    entry.onData packet false = [] := by
  simp [PartialReq.onData, h]

theorem onData_some {l : L} (h : entry.eventSubscriber = some l) (packet : Bytes) :
    entry.onData packet false = [.onData l packet false] := by
  simp [PartialReq.onData, h]

@[simp] theorem filed_onData (packet : Bytes) : filed (entry.onData packet false) = [] := by
  cases h : entry.eventSubscriber <;> simp [PartialReq.onData, h, filed, filedIn]

/-- Flushing moves the entry's bytes to the file. -/
theorem flush_placed (hopened : entry.fileOpened.isSome)
    (hpath : (entry.storagePath.bind OsPath.toStr).isSome) :
    entry.flushAndPrefixWithTempBufferIfAnyBytes.1 = { entry with body := [] } ∧
      filed entry.flushAndPrefixWithTempBufferIfAnyBytes.2 = entry.body ∧
      ∀ e ∈ entry.flushAndPrefixWithTempBufferIfAnyBytes.2, heardIn e = none := by
  obtain ⟨writer, hwriter⟩ := Option.isSome_iff_exists.mp hopened
  obtain ⟨name, hname⟩ := Option.isSome_iff_exists.mp hpath
  obtain ⟨path, hstored, htext⟩ := Option.bind_eq_some_iff.mp hname
  unfold PartialReq.flushAndPrefixWithTempBufferIfAnyBytes
  cases hbody : entry.body with
  | nil => simp [filed, ← hbody]
  | cons byte bytes => simp [hwriter, hstored, htext, filed, filedIn, heardIn]

/-- Nothing but the file's part of the effects changed, and the body with it. -/
theorem passedOn_append (dataManagementType : Option DataManagement) {more : List (Effect L W)}
    (hmore : heard more = []) :
    passedOn dataManagementType (effects ++ more) = passedOn dataManagementType effects := by
  simp [passedOn, hmore]

theorem heard_of_none {more : List (Effect L W)} (h : ∀ e ∈ more, heardIn e = none) : heard more = [] :=
  List.filterMap_eq_nil_iff.mpr h

theorem not_onData_of_none {more : List (Effect L W)} (h : ∀ e ∈ more, heardIn e = none) {l : L}
    {packet : Bytes} {isEnd : Bool} : Effect.onData l packet isEnd ∉ more := by
  intro hmem
  have := h _ hmem
  simp [heardIn] at this

namespace Carried

/-- The listener of the entry is told of the packet if there is one. -/
theorem told_onData (h : Carried subscriber packets effects entry) (packet : Bytes) :
    ∀ l bytes isEnd, Effect.onData l bytes isEnd ∈ effects ++ entry.onData packet false →
      subscriber = some l ∧ isEnd = false := by
  intro l bytes isEnd hmem
  rcases List.mem_append.mp hmem with hold | hnew
  · exact h.told l bytes isEnd hold
  · cases hl : entry.eventSubscriber with
    | none => simp [onData_none hl] at hnew
    | some listener =>
      simp only [onData_some hl, List.mem_singleton, Effect.onData.injEq] at hnew
      obtain ⟨rfl, -, rfl⟩ := hnew
      exact ⟨h.listener _ hl, rfl⟩

theorem heard_onData (h : Carried subscriber packets effects entry) (packet : Bytes) :
    heard (effects ++ entry.onData packet false) <:+ packets ++ [packet] := by
  cases hl : entry.eventSubscriber with
  | none => simp [onData_none hl, h.quiet (.inl hl)]
  | some listener =>
    obtain ⟨before, hbefore⟩ := h.suffix
    exact ⟨before, by simp [onData_some hl, heard, heardIn, ← hbefore]⟩

theorem stream (h : Carried subscriber packets effects entry)
    (hstream : entry.dataManagementType = some .stream) (packet : Bytes) :
    Carried subscriber (packets ++ [packet]) (effects ++ entry.onData packet false) entry where
  placeable := h.placeable
  conserved := by
    have hplace := h.placeable
    simp only [Placeable, hstream] at hplace
    obtain ⟨listener, hl⟩ := Option.isSome_iff_exists.mp hplace
    have hold := h.conserved
    simp only [passedOn, hstream, if_true] at hold ⊢
    simp [onData_some hl, filed, filedIn, heard, heardIn, ← hold]
  counted := by rw [filed_append, filed_onData, List.append_nil]; exact h.counted
  suffix := h.heard_onData packet
  quiet hquiet := by
    have hnone : entry.eventSubscriber = none := by simpa [hstream] using hquiet
    simpa [onData_none hnone] using h.quiet (.inl hnone)
  listener := h.listener
  told := h.told_onData packet

theorem inMemory (h : Carried subscriber packets effects entry)
    (hmem : entry.dataManagementType = some (.storage .inMemory)) (packet : Bytes) :
    Carried subscriber (packets ++ [packet]) effects (entry.extendData packet false) where
  placeable := by simp [Placeable, PartialReq.extendData, hmem]
  conserved := by
    have hold := h.conserved
    simp only [PartialReq.extendData, passedOn, hmem, reduceCtorEq, Option.some.injEq, if_false,
      List.append_nil] at hold ⊢
    rw [← List.append_assoc, hold]
    simp
  counted := by
    have hold := h.counted
    simp only [PartialReq.extendData, hold, List.length_append]
    omega
  suffix := by simp [h.quiet (.inr hmem)]
  quiet _ := h.quiet (.inr hmem)
  listener := h.listener
  told := h.told

/-- What was received before the file goes in front of it. -/
theorem flush (h : Carried subscriber packets effects entry)
    (hfile : entry.dataManagementType = some (.storage .file)) :
    Carried subscriber packets (effects ++ entry.flushAndPrefixWithTempBufferIfAnyBytes.2)
      entry.flushAndPrefixWithTempBufferIfAnyBytes.1 := by
  have hplace := h.placeable
  simp only [Placeable, hfile] at hplace
  obtain ⟨hentry, hfiled, hquiet⟩ := flush_placed hplace.1 hplace.2
  have hheard : heard (effects ++ entry.flushAndPrefixWithTempBufferIfAnyBytes.2) =
      heard effects := by
    simp [heard_of_none hquiet]
  rw [hentry]
  refine ⟨h.placeable, ?_, ?_, hheard ▸ h.suffix, fun hq => hheard ▸ h.quiet hq, h.listener, ?_⟩
  · have hold := h.conserved
    rw [passedOn_append _ (heard_of_none hquiet), filed_append, hfiled, List.append_nil]
    exact hold
  · rw [filed_append, hfiled, List.append_nil]
    exact h.counted
  · intro l bytes isEnd hmem
    rcases List.mem_append.mp hmem with hold | hnew
    · exact h.told l bytes isEnd hold
    · exact absurd hnew (not_onData_of_none hquiet)

/-- A packet is given to the listener and queued for the file. -/
theorem file (h : Carried subscriber packets effects entry)
    (hfile : entry.dataManagementType = some (.storage .file)) (packet : Bytes) :
    Carried subscriber (packets ++ [packet]) (effects ++ (entry.writeBodyPacket packet false).2.2)
      (entry.writeBodyPacket packet false).1 := by
  have hplace := h.placeable
  simp only [Placeable, hfile] at hplace
  obtain ⟨hentry, hfiled, hquiet⟩ := flush_placed hplace.1 hplace.2
  obtain ⟨writer, hwriter⟩ := Option.isSome_iff_exists.mp hplace.1
  have hwrite : entry.writeBodyPacket packet false =
      ({ entry with body := [], isEnd := false, bodyWrittenSize := entry.bodyWrittenSize + packet.length },
        some (entry.bodyWrittenSize + packet.length),
        entry.onData packet false ++ .associateStreamWithNextListener ::
          (entry.flushAndPrefixWithTempBufferIfAnyBytes.2 ++ [.sendWritableItem writer packet])) := by
    simp [PartialReq.writeBodyPacket, hfile, PartialReq.writeFile, hentry, hwriter]
  have hrest : ∀ e ∈ (.associateStreamWithNextListener ::
      (entry.flushAndPrefixWithTempBufferIfAnyBytes.2 ++ [.sendWritableItem writer packet]) :
      List (Effect L W)), heardIn e = none := by
    intro e he
    simp only [List.mem_cons, List.mem_append, List.not_mem_nil, or_false] at he
    rcases he with rfl | hflush | rfl
    · rfl
    · exact hquiet e hflush
    · rfl
  rw [hwrite, ← List.append_assoc]
  refine ⟨h.placeable, ?_, ?_, ?_, ?_, h.listener, ?_⟩
  · have hold := h.conserved
    simp only [passedOn, hfile, Option.some.injEq, reduceCtorEq, if_false, List.append_nil] at hold ⊢
    simp [hfiled, filedIn, ← hold]
  · simp [hfiled, filedIn, h.counted, Nat.add_assoc]
  · rw [heard_append, heard_of_none hrest, List.append_nil]
    exact h.heard_onData packet
  · intro hq
    have hnone : entry.eventSubscriber = none := by simpa [hfile] using hq
    rw [heard_append, heard_of_none hrest, onData_none hnone]
    simpa using h.quiet (.inl hnone)
  · intro l bytes isEnd hmem
    rcases List.mem_append.mp hmem with hold | hnew
    · exact h.told_onData packet l bytes isEnd hold
    · exact absurd hnew (not_onData_of_none hrest)

/-- A packet finds its place, whatever the data management. -/
theorem writeBodyPacket (h : Carried subscriber packets effects entry) (packet : Bytes) :
    Carried subscriber (packets ++ [packet]) (effects ++ (entry.writeBodyPacket packet false).2.2)
      (entry.writeBodyPacket packet false).1 := by
  cases hmanagement : entry.dataManagementType with
  | none =>
    have hplace := h.placeable
    simp [Placeable, hmanagement] at hplace
  | some management =>
    cases management with
    | stream => simpa [PartialReq.writeBodyPacket, hmanagement] using h.stream hmanagement packet
    | storage body =>
      cases body with
      | inMemory => simpa [PartialReq.writeBodyPacket, hmanagement] using h.inMemory hmanagement packet
      | file => exact h.file hmanagement packet

/-- An entry in memory may turn to another place, and keeps its bytes. -/
theorem turn (h : Carried subscriber packets effects entry)
    (hmem : entry.dataManagementType = some (.storage .inMemory)) {turned : PartialReq L W}
    (hplace : Placeable turned) (hbody : turned.body = entry.body)
    (hsize : turned.bodyWrittenSize = entry.bodyWrittenSize)
    (hlistener : ∀ l, turned.eventSubscriber = some l → subscriber = some l) :
    Carried subscriber packets effects turned := by
  have hquiet := h.quiet (.inr hmem)
  refine ⟨hplace, ?_, ?_, h.suffix, fun _ => hquiet, hlistener, h.told⟩
  · have hold := h.conserved
    rw [hbody]
    simpa [passedOn, hquiet] using hold
  · rw [hbody, hsize]
    exact h.counted

end Carried

end Entry

/-! ## Runs -/

/-- An entry no packet was written to. -/
theorem carried_new {subscriber : Option L} {entry : PartialReq L W} (hplace : Placeable entry)
    (hbody : entry.body = []) (hsize : entry.bodyWrittenSize = 0)
    (hlistener : ∀ l, entry.eventSubscriber = some l → subscriber = some l) :
    Carried subscriber [] [] entry :=
  ⟨hplace, by simp [hbody, passedOn, heard], by simp [hbody, hsize], List.suffix_refl _, fun _ => rfl,
    hlistener, by simp⟩

/-- How far the request has come: there is no entry yet, one the worker knows nothing of,
one it wrote, or the event. -/
inductive Reached (w : Setting M H L C W) (packets : List Bytes) (s : State L W) : Prop
  | absent (none_ : s.table w.id = none) (worker : s.worker ≠ .written ∧ s.worker ≠ .checked true)
      (network : s.network ≠ .entered) (finished : s.finished = false) (packets_nil : packets = [])
      (effects : s.effects = [])
  | waiting (entry : PartialReq L W) (entered : s.table w.id = some entry) (worker : s.worker ≠ .written)
      (finished : s.finished = false)
      (inMemory : entry.dataManagementType = some (.storage .inMemory))
      (carried : Carried w.attributes.2 packets s.effects entry)
  | accepted (entry : PartialReq L W) (entered : s.table w.id = some entry) (worker : s.worker = .written)
      (finished : s.finished = false) (full : entry.head.Full)
      (management : entry.dataManagementType = some (.storage .inMemory) ∨
        entry.dataManagementType = w.attributes.1)
      (carried : Carried w.attributes.2 packets s.effects entry)
  | finished (worker : s.worker = .written) (network : s.network = .idle) (finished : s.finished = true)
      (event : FinishedEvent W) (made : s.event = some event)
      (placed : EveryByteOnce w packets s.effects event)

section Runs
variable {w : Setting M H L C W} {packets : List Bytes} {s t : State L W} {entry : PartialReq L W}

/-- Both ways into the table know the same of the route: a downstream has no route, and is
in memory without a listener. -/
theorem attributes_eq (w : Setting M H L C W) : w.job.attributes w.manager = w.attributes := by
  have hwork := w.work
  unfold headerWork at hwork
  split at hwork
  · cases hwork
  split at hwork
  · cases hwork
  split at hwork
  case h_1 method path contentLength hparsed _ method' hmethod found route args hfound =>
    have hjob := (Server.HeaderWork.execute.inj hwork).symm
    simp only [Setting.attributes, MiddleWareJob.attributes, hjob, newRequestAttributes_of_found hfound,
      getAdditionnalAttributes_of_found hfound]
  case h_2 method path contentLength hparsed _ method' hmethod found hfound =>
    split at hwork
    · have hjob := (Server.HeaderWork.execute.inj hwork).symm
      simp only [Setting.attributes, MiddleWareJob.attributes, hjob, newRequestAttributes, hfound]
    · cases hwork

/-- Completed by the worker, the entry is the route's. -/
theorem placeable_complete (hplace : w.Placeable) (entry : PartialReq L W) :
    Placeable (entry.complete (completion w.config (w.job.accepted w.headers) w.uuid w.creation
      w.attributes)) := by
  unfold Setting.Placeable at hplace
  simp only [Placeable, PartialReq.complete, completion, MiddleWareJob.accepted,
    buildTempStageFileStoragePath]
  split at hplace
  case h_1 hstream => simpa [hstream] using hplace
  case h_2 => simp
  case h_3 hfile =>
    obtain ⟨⟨writer, hwriter⟩, htext⟩ := hplace
    simpa [hfile, hwriter, DataManagement.isBodyStorage] using htext
  case h_4 => exact hplace.elim

/-- What the worker enters is the route's, and files are created. -/
theorem exists_storage (hplace : w.Placeable) :
    ∃ storage, newEntryStorage w.config w.headers w.uuid w.creation w.attributes.1 = some storage ∧
      Placeable (PartialReq.new (some w.job.method) w.attributes.1 w.attributes.2 storage.1 storage.2
        w.headers (some w.job.path) w.job.contentLength (!(w.job.accepted w.headers).moreFrames)) := by
  unfold Setting.Placeable at hplace
  simp only [Placeable, PartialReq.new, newEntryStorage]
  split at hplace
  case h_1 hstream => simpa [hstream, DataManagement.isBodyStorage] using hplace
  case h_2 hmem => simp [hmem, DataManagement.isBodyStorage]
  case h_3 hfile =>
    obtain ⟨⟨writer, hwriter⟩, htext⟩ := hplace
    simpa [hfile, hwriter, DataManagement.isBodyStorage] using htext
  case h_4 => exact hplace.elim

/-- Filled in by the worker, the entry of a packet stays in memory. -/
theorem accepted_fill (hentry : t.table w.id = some (entry.fill w.job.method w.job.path w.headers
      w.job.contentLength)) (hworker : t.worker = .written) (hfinished : t.finished = false)
    (hmem : entry.dataManagementType = some (.storage .inMemory))
    (hcarried : Carried w.attributes.2 packets t.effects entry) : Reached w packets t := by
  have hplace : Placeable (entry.fill w.job.method w.job.path w.headers w.job.contentLength) := by
    simp [Placeable, PartialReq.fill, hmem]
  exact .accepted _ hentry hworker hfinished ⟨rfl, rfl, rfl⟩ (.inl hmem)
    (hcarried.turn hmem hplace rfl rfl hcarried.listener)

theorem writeBodyPacket_dataManagementType (entry : PartialReq L W) (packet : Bytes) :
    (entry.writeBodyPacket packet false).1.dataManagementType = entry.dataManagementType := by
  unfold PartialReq.writeBodyPacket
  split
  · rfl
  · rfl
  · rfl
  · rename_i hfile
    simp only [PartialReq.writeFile]
    split <;> exact flush_dataManagementType entry

theorem reached_dataWrite (h : Reached w packets s) (packet : Bytes)
    (hstep : step w s (.dataWrite packet) = some t) : Reached w (packets ++ [packet]) t := by
  obtain ⟨hnetwork, rfl⟩ := guarded_eq_some_iff.mp hstep
  cases h with
  | absent none_ worker network finished packets_nil effects => exact absurd hnetwork network
  | finished worker network finished event made placed => simp [network] at hnetwork
  | waiting entry entered worker finished inMemory carried =>
    refine .waiting (entry.writeBodyPacket packet false).1 ?_ worker finished ?_ ?_
    · simp [Table.writeBodyPacket, entered]
    · rwa [writeBodyPacket_dataManagementType]
    · simpa [Table.writeBodyPacket, entered] using carried.writeBodyPacket packet
  | accepted entry entered worker finished full management carried =>
    refine .accepted (entry.writeBodyPacket packet false).1 ?_ worker finished ?_ ?_ ?_
    · simp [Table.writeBodyPacket, entered]
    · rwa [writeBodyPacket_head]
    · rwa [writeBodyPacket_dataManagementType]
    · simpa [Table.writeBodyPacket, entered] using carried.writeBodyPacket packet

theorem reached_dataCheck (h : Reached w packets s) (hstep : step w s .dataCheck = some t) :
    Reached w packets t := by
  obtain ⟨⟨hidle, hfinished⟩, rfl⟩ := guarded_eq_some_iff.mp hstep
  cases h with
  | absent none_ worker network finished packets_nil effects =>
    exact .absent none_ worker (by simp [Table.isEntryPartialReponseSet, none_]) finished packets_nil effects
  | waiting entry entered worker finished inMemory carried =>
    exact .waiting entry entered worker finished inMemory carried
  | accepted entry entered worker finished full management carried =>
    exact .accepted entry entered worker finished full management carried
  | finished worker network finished event made placed => simp [finished] at hfinished

/-- An entry that came in between stays. -/
theorem reached_dataSet (h : Reached w packets s) (hstep : step w s .dataSet = some t) :
    Reached w packets t := by
  obtain ⟨hmissing, rfl⟩ := guarded_eq_some_iff.mp hstep
  cases h with
  | absent none_ worker network finished packets_nil effects =>
    subst packets_nil
    have hentry : s.table.setRequestInTable w.id w.id =
        some (PartialReq.new none (some default) none none none [] none none false) := by
      simp [Table.setRequestInTable, none_]
    refine .waiting _ hentry worker.1 finished rfl ?_
    rw [effects]
    exact carried_new trivial rfl rfl (by simp [PartialReq.new])
  | waiting entry entered worker finished inMemory carried =>
    exact .waiting entry (by simp [Table.setRequestInTable, entered]) worker finished inMemory carried
  | accepted entry entered worker finished full management carried =>
    exact .accepted entry (by simp [Table.setRequestInTable, entered]) worker finished full management carried
  | finished worker network finished event made placed => simp [network] at hmissing

theorem reached_workerCheck (h : Reached w packets s) (hstep : step w s .workerCheck = some t) :
    Reached w packets t := by
  obtain ⟨hstart, rfl⟩ := guarded_eq_some_iff.mp hstep
  cases h with
  | absent none_ worker network finished packets_nil effects =>
    exact .absent none_ (by simp [Table.isEntryPartialReponseSet, none_]) network finished packets_nil effects
  | waiting entry entered worker finished inMemory carried =>
    exact .waiting entry entered (by simp) finished inMemory carried
  | accepted entry entered worker finished full management carried => simp [worker] at hstart
  | finished worker network finished event made placed => simp [worker] at hstart

theorem reached_workerComplete (hplace : w.Placeable) (h : Reached w packets s)
    (hstep : step w s .workerComplete = some t) : Reached w packets t := by
  obtain ⟨hchecked, rfl⟩ := guarded_eq_some_iff.mp hstep
  cases h with
  | absent none_ worker network finished packets_nil effects => exact absurd hchecked worker.2
  | waiting entry entered worker finished inMemory carried =>
    have hentry : s.table.completeRequestEntryInTable w.id (completion w.config (w.job.accepted w.headers)
        w.uuid w.creation (w.job.attributes w.manager)) w.id = some (entry.complete (completion w.config
        (w.job.accepted w.headers) w.uuid w.creation w.attributes)) := by
      simp [Table.completeRequestEntryInTable, entered, attributes_eq]
    exact .accepted _ hentry rfl finished ⟨rfl, rfl, rfl⟩ (.inr rfl)
      (carried.turn inMemory (placeable_complete hplace entry) rfl rfl fun l hl => hl)
  | accepted entry entered worker finished full management carried => simp [worker] at hchecked
  | finished worker network finished event made placed => simp [worker] at hchecked

theorem reached_workerLookup (h : Reached w packets s) (hstep : step w s .workerLookup = some t) :
    Reached w packets t := by
  obtain ⟨hchecked, hlookup⟩ := guarded_eq_some_iff.mp hstep
  cases h with
  | absent none_ worker network finished packets_nil effects =>
    simp only [Table.addPartialRequestFound, none_, Option.map_none] at hlookup
    subst hlookup
    exact .absent none_ (by simp) network finished packets_nil effects
  | waiting entry entered worker finished inMemory carried =>
    simp only [Table.addPartialRequestFound, entered, Option.map_some] at hlookup
    subst hlookup
    exact accepted_fill (by simp [entered]) rfl finished inMemory carried
  | accepted entry entered worker finished full management carried => simp [worker] at hchecked
  | finished worker network finished event made placed => simp [worker] at hchecked

theorem reached_workerCreate (hplace : w.Placeable) (h : Reached w packets s)
    (hstep : step w s .workerCreate = some t) : Reached w packets t := by
  obtain ⟨hcreating, rfl⟩ := guarded_eq_some_iff.mp hstep
  obtain ⟨storage, hstorage, hnew⟩ := exists_storage hplace
  cases h with
  | absent none_ worker network finished packets_nil effects =>
    subst packets_nil
    have hentry : s.table.addPartialRequestAbsent w.config w.id w.job.method w.attributes.1 w.attributes.2
        w.headers w.job.path w.job.contentLength (!(w.job.accepted w.headers).moreFrames) w.uuid w.creation
        w.id = some (PartialReq.new (some w.job.method) w.attributes.1 w.attributes.2 storage.1 storage.2
          w.headers (some w.job.path) w.job.contentLength (!(w.job.accepted w.headers).moreFrames)) := by
      simp [Table.addPartialRequestAbsent, hstorage, none_]
    refine .accepted _ hentry rfl finished ⟨rfl, rfl, rfl⟩ (.inr rfl) ?_
    rw [effects]
    exact carried_new hnew rfl rfl fun l hl => hl
  | waiting entry entered worker finished inMemory carried =>
    exact accepted_fill (by simp [Table.addPartialRequestAbsent, hstorage, entered]) rfl finished inMemory
      carried
  | accepted entry entered worker finished full management carried => simp [worker] at hcreating
  | finished worker network finished event made placed => simp [worker] at hcreating

/-- The bytes of the entry go into the event. -/
theorem placed_toRouteEvent {effects : List (Effect L W)} (hfull : entry.head.Full)
    (hmanagement : entry.dataManagementType = some (.storage .inMemory) ∨
      entry.dataManagementType = w.attributes.1)
    (h : Carried w.attributes.2 packets effects entry) :
    ∃ event, (entry.toRouteEvent w.id w.message.scid).2.1 = some event ∧
      EveryByteOnce w packets (effects ++ (entry.toRouteEvent w.id w.message.scid).2.2) event := by
  obtain ⟨hmethod, hheaders, hpath⟩ := hfull
  obtain ⟨method, hmethod⟩ := Option.isSome_iff_exists.mp hmethod
  obtain ⟨headers, hheaders⟩ := Option.isSome_iff_exists.mp hheaders
  obtain ⟨path, hpath⟩ := Option.isSome_iff_exists.mp hpath
  simp only [PartialReq.head] at hmethod hheaders hpath
  have hpassed : passedOn w.attributes.1 effects = passedOn entry.dataManagementType effects := by
    rcases hmanagement with hmem | hroute
    · simp [passedOn, h.quiet (.inr hmem)]
    · rw [hroute]
  -- the final size is announced to the file's writer, which gives it no bytes
  have hfinish : ∀ e ∈ (entry.toRouteEvent w.id w.message.scid).2.2, heardIn e = none ∧ filedIn e = [] := by
    intro e he
    simp only [PartialReq.toRouteEvent, hmethod, hheaders, hpath] at he
    cases hopened : entry.fileOpened with
    | none => simp [hopened] at he
    | some writer =>
      simp only [hopened, List.mem_singleton] at he
      subst he
      exact ⟨rfl, rfl⟩
  have hheard : heard (entry.toRouteEvent w.id w.message.scid).2.2 = [] :=
    heard_of_none fun e he => (hfinish e he).1
  have hfiled : filed (entry.toRouteEvent w.id w.message.scid).2.2 = [] :=
    List.flatMap_eq_nil_iff.mpr fun e he => (hfinish e he).2
  have hevent : (entry.toRouteEvent w.id w.message.scid).2.1 = some
      { id := w.id, scid := w.message.scid, path, method, headers, args := entry.args
        filePath := entry.storagePath, writer := entry.fileOpened, bytesWritten := entry.bodyWrittenSize
        body := some entry.body, isEnd := entry.isEnd } := by
    simp only [PartialReq.toRouteEvent, hmethod, hheaders, hpath]
  refine ⟨_, hevent, ⟨entry.body, rfl, ?_, ?_⟩, ?_, ?_⟩
  · rw [passedOn_append _ hheard, hpassed, filed_append, hfiled, List.append_nil]
    exact h.conserved
  · rw [filed_append, hfiled, List.append_nil]
    exact h.counted
  · rw [heard_append, hheard, List.append_nil]
    exact h.suffix
  · intro l packet isEnd hmem
    rcases List.mem_append.mp hmem with hold | hnew
    · exact h.told l packet isEnd hold
    · exact absurd hnew (not_onData_of_none fun e he => (hfinish e he).1)

/-- Those of a file go there first. -/
theorem placed_buildRouteEvent {effects : List (Effect L W)} (hfull : entry.head.Full)
    (hmanagement : entry.dataManagementType = some (.storage .inMemory) ∨
      entry.dataManagementType = w.attributes.1)
    (h : Carried w.attributes.2 packets effects entry) :
    ∃ event, (entry.buildRouteEvent w.id w.message.scid).2.1 = some event ∧
      EveryByteOnce w packets (effects ++ (entry.buildRouteEvent w.id w.message.scid).2.2) event := by
  unfold PartialReq.buildRouteEvent
  dsimp only
  split
  · rename_i hfile
    obtain ⟨event, hevent, hplaced⟩ := placed_toRouteEvent (w := w) (by rwa [flush_head])
      (by rwa [flush_dataManagementType]) (h.flush hfile)
    exact ⟨event, hevent, by rwa [← List.append_assoc]⟩
  · exact placed_toRouteEvent hfull hmanagement h

theorem reached_buildRouteEvent (h : Reached w packets s) (hstep : step w s .buildRouteEvent = some t) :
    Reached w packets t := by
  obtain ⟨⟨hwritten, hidle, hfinished⟩, rfl⟩ := guarded_eq_some_iff.mp hstep
  cases h with
  | absent none_ worker network finished packets_nil effects => exact absurd hwritten worker.1
  | waiting entry entered worker finished inMemory carried => exact absurd hwritten worker
  | accepted entry entered worker finished full management carried =>
    obtain ⟨event, hevent, hplaced⟩ := placed_buildRouteEvent full management carried
    simp only [State.finish, entered]
    exact .finished hwritten hidle rfl event hevent hplaced
  | finished worker network finished event made placed => simp [finished] at hfinished

/-- One access keeps every byte in its place. -/
theorem reached_step (hplace : w.Placeable) {past : List Action} {a : Action}
    (h : Reached w (packetsOf past) s) (hstep : step w s a = some t) :
    Reached w (packetsOf (past ++ [a])) t := by
  have hsame : packetsOf [a] = [] → Reached w (packetsOf past) t → Reached w (packetsOf (past ++ [a])) t := by
    intro ha ht
    rwa [packetsOf_append, ha, List.append_nil]
  cases a with
  | dataWrite packet =>
    rw [packetsOf_append]
    exact reached_dataWrite h packet hstep
  | dataCheck => exact hsame rfl (reached_dataCheck h hstep)
  | dataSet => exact hsame rfl (reached_dataSet h hstep)
  | workerCheck => exact hsame rfl (reached_workerCheck h hstep)
  | workerComplete => exact hsame rfl (reached_workerComplete hplace h hstep)
  | workerLookup => exact hsame rfl (reached_workerLookup h hstep)
  | workerCreate => exact hsame rfl (reached_workerCreate hplace h hstep)
  | buildRouteEvent => exact hsame rfl (reached_buildRouteEvent h hstep)

theorem reached_run (hplace : w.Placeable) {as : List Action} (run : exec (step w) {} as = some s) :
    Reached w (packetsOf as) s := by
  have hinit : Reached w (packetsOf []) ({} : State L W) := .absent rfl (by simp) (by simp) rfl rfl rfl
  exact exec_history (P := fun past s => Reached w (packetsOf past) s) hinit
    (fun _ _ _ _ h hstep => reached_step hplace h hstep) run

end Runs

/-- However the packets and the worker are interleaved, no byte of the body is lost, kept
twice or out of order when the request is finished. -/
theorem every_byte_once (w : Setting M H L C W) (hplace : w.Placeable) {s : State L W} {as : List Action}
    (run : exec (step w) {} as = some s) (hfinished : s.finished = true) :
    ∃ event, s.event = some event ∧ EveryByteOnce w (packetsOf as) s.effects event := by
  cases reached_run hplace run with
  | absent none_ worker network finished packets_nil effects => simp [finished] at hfinished
  | waiting entry entered worker finished inMemory carried => simp [finished] at hfinished
  | accepted entry entered worker finished full management carried => simp [finished] at hfinished
  | finished worker network finished event made placed => exact ⟨event, made, placed⟩

/-- One POST route at `/a`, which streams to a listener. -/
def streamingManager : RouteManager Unit Unit Unit Unit where
  routesFormats :=
    { entries := [("/a", [⟨.POST, some (), [], [], "/a", some .stream⟩])]
      keys_nodup := by simp
      path_eq := by simp
      methods_nodup := by simp }
  streamSessions := []

def streaming : Setting Unit Unit Unit Unit Unit where
  config := ⟨⟨[47]⟩⟩
  manager := streamingManager
  message := ⟨("c", 0), [1], true, [⟨ascii ":method", ascii "POST"⟩, ⟨ascii ":path", ascii "/a"⟩]⟩
  job :=
    { path := "/a", method := .POST, routeType := .regular, contentLength := none, middlewareCollection := []
      message := ⟨("c", 0), [1], true, [⟨ascii ":method", ascii "POST"⟩, ⟨ascii ":path", ascii "/a"⟩]⟩ }
  headers := []
  uuid := "u"
  creation := .createFailed
  work := rfl

/-- A packet comes before the worker and one after it. -/
def aroundWorker : List Action := [.dataCheck, .dataSet, .dataWrite [1], .workerCheck, .workerComplete,
  .dataCheck, .dataWrite [2, 3], .buildRouteEvent]

theorem every_byte_once_aroundWorker : ∃ s event, exec (step streaming) {} aroundWorker = some s ∧
    s.event = some event ∧ EveryByteOnce streaming [[1], [2, 3]] s.effects event := by
  have hrun : exec (step streaming) {} aroundWorker = some _ := rfl
  obtain ⟨event, hevent, hplaced⟩ := every_byte_once streaming rfl hrun rfl
  exact ⟨_, event, hrun, hevent, hplaced⟩

/-! ## What the listener hears -/

/-- There is a listener, and packets do not stay in memory. -/
def heardOf (dataManagementType : Option DataManagement) (eventSubscriber : Option L) : Bool :=
  eventSubscriber.isSome && !decide (dataManagementType = some (.storage .inMemory))

def listens (entry : PartialReq L W) : Bool := heardOf entry.dataManagementType entry.eventSubscriber

def Setting.listens (w : Setting M H L C W) : Bool := heardOf w.attributes.1 w.attributes.2

/-- The worker has seen the entry of the first packet, or is the first to enter the
request; it does not find an entry it has not seen. -/
def State.inTime (w : Setting M H L C W) (s : State L W) : Bool :=
  decide (s.worker = .checked true) || !s.table.isEntryPartialReponseSet w.id

section Hearing
variable {w : Setting M H L C W} {m m' s t : State L W} {entry : PartialReq L W} {a : Action}

theorem flush_unheard (entry : PartialReq L W) :
    ∀ e ∈ entry.flushAndPrefixWithTempBufferIfAnyBytes.2, heardIn e = none := by
  intro e he
  unfold PartialReq.flushAndPrefixWithTempBufferIfAnyBytes at he
  split at he
  · cases he
  · dsimp only at he
    split at he
    · split at he
      · simp only [List.mem_singleton] at he
        subst he
        rfl
      · cases he
    · cases he

theorem flush_eventSubscriber (entry : PartialReq L W) :
    entry.flushAndPrefixWithTempBufferIfAnyBytes.1.eventSubscriber = entry.eventSubscriber := by
  unfold PartialReq.flushAndPrefixWithTempBufferIfAnyBytes
  split
  · rfl
  · dsimp only
    split
    · split <;> rfl
    · rfl

theorem writeFile_unheard (entry : PartialReq L W) (packet : Bytes) :
    ∀ e ∈ (entry.writeFile packet false).2, heardIn e = none := by
  intro e he
  unfold PartialReq.writeFile at he
  dsimp only at he
  split at he
  · simp only [List.mem_singleton] at he
    subst he
    rfl
  · cases he

theorem heard_onData (entry : PartialReq L W) (packet : Bytes) :
    heard (entry.onData packet false) = if entry.eventSubscriber.isSome then [packet] else [] := by
  cases h : entry.eventSubscriber <;> simp [PartialReq.onData, h, heard, heardIn]

/-- A packet is heard when the entry listens, and the entry listens on. -/
theorem heard_writeBodyPacket (hmanagement : entry.dataManagementType ≠ none) (packet : Bytes) :
    heard (entry.writeBodyPacket packet false).2.2 = (if listens entry then [packet] else []) ∧
      listens (entry.writeBodyPacket packet false).1 = listens entry := by
  have hkept : (entry.writeBodyPacket packet false).1.eventSubscriber = entry.eventSubscriber := by
    unfold PartialReq.writeBodyPacket
    split
    · rfl
    · rfl
    · rfl
    · simp only [PartialReq.writeFile]
      split <;> exact flush_eventSubscriber entry
  refine ⟨?_, by simp only [listens, hkept, writeBodyPacket_dataManagementType]⟩
  unfold PartialReq.writeBodyPacket listens heardOf
  split
  case h_1 hnone => exact absurd hnone hmanagement
  case h_2 hstream => simp [heard_onData, hstream]
  case h_3 hmem => simp [hmem, heard]
  case h_4 hfile =>
    have hrest : ∀ e ∈ (.associateStreamWithNextListener ::
        (entry.flushAndPrefixWithTempBufferIfAnyBytes.2 ++
          (entry.flushAndPrefixWithTempBufferIfAnyBytes.1.writeFile packet false).2) :
        List (Effect L W)), heardIn e = none := by
      intro e he
      simp only [List.mem_cons, List.mem_append] at he
      rcases he with rfl | hflush | hwrite
      · rfl
      · exact flush_unheard entry e hflush
      · exact writeFile_unheard _ packet e hwrite
    simp [heard_of_none hrest, heard_onData, hfile]

theorem Reached.management_ne_none {packets : List Bytes} (h : Reached w packets m)
    (hfinished : m.finished = false) (hentry : m.table w.id = some entry) :
    entry.dataManagementType ≠ none := by
  have hplace : ∀ other : PartialReq L W, m.table w.id = some other → Placeable other →
      entry.dataManagementType ≠ none := by
    intro other entered hplace hnone
    obtain rfl := Option.some.inj (entered.symm.trans hentry)
    simp [Placeable, hnone] at hplace
  cases h with
  | absent none_ worker network finished packets_nil effects => simp [none_] at hentry
  | waiting entry entered worker finished inMemory carried => exact hplace entry entered carried.placeable
  | accepted entry entered worker finished full management carried =>
    exact hplace entry entered carried.placeable
  | finished worker network finished event made placed => simp [hfinished] at finished

/-- The write that ends the worker's part decides whether the listener hears. -/
theorem written_entry (hplace : w.Placeable) {packets : List Bytes} (h : Reached w packets m)
    (hm : m.worker ≠ .written) (hstep : step w m a = some m') (hm' : m'.worker = .written) :
    ∃ entry, m'.table w.id = some entry ∧ m'.finished = false ∧ heard m'.effects = [] ∧
      listens entry = (w.listens && m.inTime w) := by
  cases a with
  | dataCheck | dataSet | dataWrite packet | buildRouteEvent =>
    obtain ⟨hguard, rfl⟩ := guarded_eq_some_iff.mp hstep
    first
    | exact absurd hm' hm
    | exact absurd hguard.1 hm
  | workerCheck =>
    obtain ⟨-, rfl⟩ := guarded_eq_some_iff.mp hstep
    cases hm'
  | workerComplete =>
    obtain ⟨hchecked, rfl⟩ := guarded_eq_some_iff.mp hstep
    cases h with
    | absent none_ worker network finished packets_nil effects => exact absurd hchecked worker.2
    | waiting entry entered worker finished inMemory carried =>
      have hentry : m.table.completeRequestEntryInTable w.id (completion w.config
          (w.job.accepted w.headers) w.uuid w.creation (w.job.attributes w.manager)) w.id =
          some (entry.complete (completion w.config (w.job.accepted w.headers) w.uuid w.creation
            w.attributes)) := by
        simp [Table.completeRequestEntryInTable, entered, attributes_eq]
      refine ⟨_, hentry, finished, carried.quiet (.inr inMemory), ?_⟩
      simp only [State.inTime, hchecked, decide_true, Bool.true_or, Bool.and_true]
      rfl
    | accepted entry entered worker finished full management carried => exact absurd worker hm
    | finished worker network finished event made placed => exact absurd worker hm
  | workerLookup =>
    obtain ⟨hchecked, hlookup⟩ := guarded_eq_some_iff.mp hstep
    cases h with
    | absent none_ worker network finished packets_nil effects =>
      simp only [Table.addPartialRequestFound, none_, Option.map_none] at hlookup
      subst hlookup
      cases hm'
    | waiting entry entered worker finished inMemory carried =>
      simp only [Table.addPartialRequestFound, entered, Option.map_some] at hlookup
      subst hlookup
      refine ⟨entry.fill w.job.method w.job.path w.headers w.job.contentLength, by simp [entered], finished,
        carried.quiet (.inr inMemory), ?_⟩
      simp [listens, heardOf, State.inTime, hchecked, Table.isEntryPartialReponseSet, entered, PartialReq.fill,
        inMemory]
    | accepted entry entered worker finished full management carried => exact absurd worker hm
    | finished worker network finished event made placed => exact absurd worker hm
  | workerCreate =>
    obtain ⟨hcreating, rfl⟩ := guarded_eq_some_iff.mp hstep
    obtain ⟨storage, hstorage, hnew⟩ := exists_storage hplace
    cases h with
    | absent none_ worker network finished packets_nil effects =>
      refine ⟨PartialReq.new (some w.job.method) w.attributes.1 w.attributes.2 storage.1 storage.2
        w.headers (some w.job.path) w.job.contentLength (!(w.job.accepted w.headers).moreFrames), ?_, finished,
        by simp [effects, heard], ?_⟩
      · simp [Table.addPartialRequestAbsent, hstorage, none_]
      · simp only [State.inTime, Table.isEntryPartialReponseSet, none_, Option.isSome_none, Bool.not_false,
          Bool.or_true, Bool.and_true]
        rfl
    | waiting entry entered worker finished inMemory carried =>
      refine ⟨entry.fill w.job.method w.job.path w.headers w.job.contentLength, ?_, finished,
        carried.quiet (.inr inMemory), ?_⟩
      · simp [Table.addPartialRequestAbsent, hstorage, entered]
      · simp [listens, heardOf, State.inTime, hcreating, Table.isEntryPartialReponseSet, entered, PartialReq.fill,
          inMemory]
    | accepted entry entered worker finished full management carried => exact absurd worker hm
    | finished worker network finished event made placed => exact absurd worker hm

/-- The entry listens as it did when the worker wrote it, and was told what came since. -/
structure Heard (w : Setting M H L C W) (listening : Bool) (packets : List Bytes) (s : State L W) :
    Prop where
  worker : s.worker = .written
  entry : s.finished = false → ∃ entry, s.table w.id = some entry ∧ entry.dataManagementType ≠ none ∧
    listens entry = listening
  idle : s.finished = true → s.network = .idle
  heard : heard s.effects = if listening then packets else []

theorem buildRouteEvent_unheard (entry : PartialReq L W) (id : ReqId) (scid : Bytes) :
    heard (entry.buildRouteEvent id scid).2.2 = [] := by
  have hevent : ∀ flushed : PartialReq L W, ∀ e ∈ (flushed.toRouteEvent id scid).2.2, heardIn e = none := by
    intro flushed e he
    unfold PartialReq.toRouteEvent at he
    split at he
    · dsimp only at he
      split at he
      · simp only [List.mem_singleton] at he
        subst he
        rfl
      · cases he
    · cases he
  unfold PartialReq.buildRouteEvent
  dsimp only
  split
  · simp [heard_of_none (flush_unheard entry), heard_of_none (hevent _)]
  · simp [heard_of_none (hevent _)]

theorem Heard.step {listening : Bool} {past : List Action} (h : Heard w listening (packetsOf past) s)
    (hstep : step w s a = some t) : Heard w listening (packetsOf (past ++ [a])) t := by
  rw [packetsOf_append]
  cases a with
  | workerCheck | workerComplete | workerCreate =>
    obtain ⟨hguard, -⟩ := guarded_eq_some_iff.mp hstep
    simp [h.worker] at hguard
  | workerLookup =>
    obtain ⟨hguard, -⟩ := guarded_eq_some_iff.mp hstep
    simp [h.worker] at hguard
  | dataCheck =>
    obtain ⟨⟨-, hfinished⟩, rfl⟩ := guarded_eq_some_iff.mp hstep
    refine ⟨h.worker, h.entry, fun hf => ?_, ?_⟩
    · simp [hfinished] at hf
    · simpa [packetsOf] using h.heard
  | dataSet =>
    obtain ⟨hmissing, rfl⟩ := guarded_eq_some_iff.mp hstep
    refine ⟨h.worker, fun hf => ?_, fun hf => ?_, ?_⟩
    · obtain ⟨entry, entered, hentry⟩ := h.entry hf
      exact ⟨entry, by simp [Table.setRequestInTable, entered], hentry⟩
    · simp [h.idle hf] at hmissing
    · simpa [packetsOf] using h.heard
  | dataWrite packet =>
    obtain ⟨hentered, rfl⟩ := guarded_eq_some_iff.mp hstep
    have hfinished : s.finished = false := by
      cases hf : s.finished with
      | false => rfl
      | true => simp [h.idle hf] at hentered
    obtain ⟨entry, entered, hmanagement, hlistens⟩ := h.entry hfinished
    obtain ⟨hheard, hstill⟩ := heard_writeBodyPacket hmanagement packet
    refine ⟨h.worker, fun _ => ⟨(entry.writeBodyPacket packet false).1, ?_, ?_, ?_⟩, fun hf => ?_, ?_⟩
    · simp [Table.writeBodyPacket, entered]
    · rwa [writeBodyPacket_dataManagementType]
    · rw [hstill, hlistens]
    · simp [hfinished] at hf
    · simp only [Table.writeBodyPacket, entered, heard_append, h.heard, hheard, hlistens]
      cases listening <;> simp [packetsOf]
  | buildRouteEvent =>
    obtain ⟨⟨-, hidle, hfinished⟩, rfl⟩ := guarded_eq_some_iff.mp hstep
    obtain ⟨entry, entered, -⟩ := h.entry hfinished
    simp only [State.finish, entered]
    refine ⟨h.worker, fun hf => (by cases hf), fun _ => hidle, ?_⟩
    rw [heard_append, buildRouteEvent_unheard]
    simpa [packetsOf] using h.heard

end Hearing

/-- The listener of the route hears exactly the packets that come after the worker's write;
none if the first packet entered the request between the two accesses of the worker. -/
theorem listener_hears (w : Setting M H L C W) (hplace : w.Placeable) {m m' s : State L W}
    {pre post : List Action} {a : Action} (hpre : exec (step w) {} pre = some m) (hm : m.worker ≠ .written)
    (hstep : step w m a = some m') (hm' : m'.worker = .written) (hpost : exec (step w) m' post = some s) :
    heard s.effects = if w.listens && m.inTime w then packetsOf post else [] := by
  have hreached := reached_run hplace hpre
  obtain ⟨entry, entered, hfinished, hquiet, hlistens⟩ := written_entry hplace hreached hm hstep hm'
  have hmanagement := (reached_step hplace hreached hstep).management_ne_none hfinished entered
  have hstart : Heard w (w.listens && m.inTime w) (packetsOf []) m' := by
    refine ⟨hm', fun _ => ⟨entry, entered, hmanagement, hlistens⟩, fun hf => ?_, ?_⟩
    · simp [hfinished] at hf
    · simpa [packetsOf] using hquiet
  exact (exec_history (P := fun past s => Heard w (w.listens && m.inTime w) (packetsOf past) s) hstart
    (fun _ _ _ _ h hstep => h.step hstep) hpost).heard

/-- A first packet between the worker's question and its lookup: the whole body is in memory. -/
example : (exec (step streaming) {} [.workerCheck, .dataCheck, .dataSet, .dataWrite [1], .workerLookup,
    .dataCheck, .dataWrite [2, 3], .buildRouteEvent]).map (fun s => heard s.effects) = some [] := rfl

theorem listener_hears_aroundWorker : ∃ s, exec (step streaming) {} aroundWorker = some s ∧
    heard s.effects = [[2, 3]] :=
  ⟨_, rfl, listener_hears streaming rfl
    (show exec (step streaming) {} [.dataCheck, .dataSet, .dataWrite [1], .workerCheck] = some _ from rfl)
    (by simp) (show step streaming _ .workerComplete = some _ from rfl) rfl
    (show exec (step streaming) _ [.dataCheck, .dataWrite [2, 3], .buildRouteEvent] = some _ from rfl)⟩

end FacesHttp3.Listeners
