import FacesHttp3.Lib.Exec
import FacesHttp3.RequestsTable

/-! # The first packet against the middlewares

The first body packet of a request and the middleware worker that accepted it
both look the request up and then enter it, in two threads. The packets of one
request and the worker of its one header section are interleaved here in every
way; `finishedEvent_iff` says in which of them the finished event is the one of
a worker that came first. -/

namespace FacesHttp3.EntryRace
open FacesHttp3.Lib FacesHttp3.Lib.Exec FacesHttp3.Request FacesHttp3.Router
open FacesHttp3.RequestsTable

variable {M H L C W : Type}

/-- A request the middlewares accepted, its route, and how the creation of its
storage file goes. -/
structure Setting (M H L C W : Type) where
  config : ServerConfig
  manager : RouteManager M H L C
  id : ReqId
  scid : Bytes
  request : Accepted
  route : RouteForm M H L
  body : BodyStorage
  uuid : String
  creation : FileCreation W
  found : manager.getRoutesFromPathAndMethod request.path request.method =
    some (route, (ReqArgs.parseArgs request.path).2)
  stored : route.dataManagementType = some (.storage body)

inductive NetworkPc
  | idle
  | missing
  | entered
  deriving DecidableEq

inductive WorkerPc
  | start
  | checked (isSet : Bool)
  | creating
  | written
  deriving DecidableEq

structure Race (L W : Type) where
  table : Table L W := PMap.empty
  network : NetworkPc := .idle
  worker : WorkerPc := .start

inductive Action
  | dataCheck
  | dataSet
  | dataWrite (packet : Bytes)
  | workerCheck
  | workerComplete
  | workerLookup
  | workerCreate

/-- One access of one thread. Network: `is_request_set_in_table`,
`set_request_in_table` when it is not, `write_body_packet`. Worker: the same
question, then `complete_request_entry_in_table`, or the two accesses of
`create_new_request_in_table`. -/
def step (w : Setting M H L C W) (s : Race L W) : Action → Option (Race L W)
  | .dataCheck => guarded (s.network = .idle) <|
    { s with network := if s.table.isEntryPartialReponseSet w.id then .entered else .missing }
  | .dataSet => guarded (s.network = .missing) <|
    { s with table := s.table.setRequestInTable w.id, network := .entered }
  | .dataWrite packet => guarded (s.network = .entered) <|
    { s with table := (s.table.writeBodyPacket w.id packet false).1, network := .idle }
  | .workerCheck => guarded (s.worker = .start) <|
    { s with worker := .checked (s.table.isEntryPartialReponseSet w.id) }
  | .workerComplete => guarded (s.worker = .checked true) <|
    { s with
      table := s.table.completeRequestEntryInTable w.id
        (completion w.config w.request w.uuid w.creation
          (getAdditionnalAttributes w.manager w.request.path w.request.method))
      worker := .written }
  | .workerLookup => guarded (s.worker = .checked false) <|
    match s.table.addPartialRequestFound w.id w.request.method w.request.headers w.request.path
        w.request.contentLength with
    | some table => { s with table, worker := .written }
    | none => { s with worker := .creating }
  | .workerCreate => guarded (s.worker = .creating) <|
    let attributes := newRequestAttributes w.manager w.request.path w.request.method
    { s with
      table := s.table.addPartialRequestAbsent w.config w.id w.request.method attributes.1
        attributes.2 w.request.headers w.request.path w.request.contentLength
        (!w.request.moreFrames) w.uuid w.creation
      worker := .written }

/-- The event `build_route_event` makes of the request now. -/
def Race.finishedEvent (w : Setting M H L C W) (s : Race L W) : Option (FinishedEvent W) :=
  (s.table w.id).bind fun entry => (entry.buildRouteEvent w.id w.scid).2.1

/-- The run in which the worker is done before the first packet. -/
def workerFirst (packets : List Bytes) : List Action :=
  [.workerCheck, .workerLookup, .workerCreate] ++
    packets.flatMap fun packet => [.dataCheck, .dataWrite packet]

/-- The packets a run has written. -/
def packetsOf (as : List Action) : List Bytes :=
  as.filterMap fun
    | .dataWrite packet => some packet
    | _ => none

/-- What handlers are dispatched on and given: path, query arguments, method,
headers, and whether there is a file. -/
structure SameRequest (event reference : FinishedEvent W) : Prop where
  path : event.path = reference.path
  args : event.args = reference.args
  method : event.method = reference.method
  headers : event.headers = reference.headers
  filePath : event.filePath.isSome = reference.filePath.isSome
  writer : event.writer.isSome = reference.writer.isSome

/-- A file path and a writer exactly when the route stores bodies in files. -/
structure StoredAs (body : BodyStorage) (event : FinishedEvent W) : Prop where
  filePath : event.filePath.isSome = decide (body = .file)
  writer : event.writer.isSome = decide (body = .file)

/-- The finished event does not show that packets raced with the worker. -/
def AsIfWorkerFirst (w : Setting M H L C W) (packets : List Bytes) (s : Race L W) : Prop :=
  ∃ event reference first, s.finishedEvent w = some event ∧
    exec (step w) {} (workerFirst packets) = some first ∧
    first.finishedEvent w = some reference ∧
    SameRequest event reference ∧ StoredAs w.body event ∧
    w.manager.routeEventDispatcher.handlersFor event.path event.method =
      w.manager.routeEventDispatcher.handlersFor reference.path reference.method

/-- The state in which the worker writes the entry: a packet has not entered the
request yet, or the path has no query string and the worker has seen the entry
or stores in memory anyway. Files are created. -/
def NoRace (w : Setting M H L C W) (s : Race L W) : Prop :=
  (s.table w.id = none ∨
      (¬ HasQuery w.request.path ∧ (s.worker = .checked true ∨ w.body = .inMemory))) ∧
    (w.body = .file → ∃ writer, w.creation = .created writer)

/-! ## The head of the entry -/

def Race.head (w : Setting M H L C W) (s : Race L W) : Option (Head W) :=
  (s.table w.id).map PartialReq.head

/-- The head of an entry made by a packet. -/
def packetHead : Head W := ⟨none, none, none, none, none, none⟩

/-- A head the request's handler may be given: what the headers say, the path without its query
string, and a file exactly when the route has one. -/
structure Settled (w : Setting M H L C W) (head : Head W) : Prop where
  path : head.path = some (ReqArgs.parseArgs w.request.path).1
  args : head.args = (ReqArgs.parseArgs w.request.path).2
  method : head.method = some w.request.method
  headers : head.headers = some w.request.headers
  storagePath : head.storagePath.isSome = decide (w.body = .file)
  fileOpened : head.fileOpened.isSome = decide (w.body = .file)

theorem Settled.full {w : Setting M H L C W} {head : Head W} (h : Settled w head) : head.Full := by
  simp [Head.Full, h.path, h.method, h.headers]

theorem finishedEvent_head {w : Setting M H L C W} {s : Race L W} {event : FinishedEvent W}
    (h : s.finishedEvent w = some event) : s.head w = some (eventHead event) := by
  obtain ⟨entry, he, hev⟩ := Option.bind_eq_some_iff.mp h
  obtain ⟨flushed, hf, -, hbuild⟩ := buildRouteEvent_flushed entry w.id w.scid
  rw [hbuild] at hev
  simp [Race.head, he, toRouteEvent_head _ _ _ _ hev, hf]

theorem finishedEvent_of_full {w : Setting M H L C W} {s : Race L W} {head : Head W}
    (h : s.head w = some head) (hfull : head.Full) :
    ∃ event, s.finishedEvent w = some event ∧ eventHead event = head := by
  obtain ⟨entry, he, rfl⟩ := Option.map_eq_some_iff.mp h
  obtain ⟨flushed, hf, -, hbuild⟩ := buildRouteEvent_flushed entry w.id w.scid
  rw [← hf] at hfull
  obtain ⟨event, hev⟩ := Option.isSome_iff_exists.mp
    ((toRouteEvent_isSome flushed w.id w.scid).mpr hfull)
  refine ⟨event, ?_, ?_⟩
  · simp [Race.finishedEvent, he, hbuild, hev]
  · rw [toRouteEvent_head _ _ _ _ hev, hf]

theorem packetHead_not_full : ¬ (packetHead : Head W).Full := by simp [packetHead, Head.Full]

/-! ## Packets -/

/-- A packet enters an unknown request without a head and leaves a known one's
head alone; the worker's step does not depend on it. -/
theorem data_step {w : Setting M H L C W} {s t : Race L W} {a : Action}
    (ha : a = .dataCheck ∨ a = .dataSet ∨ ∃ packet, a = .dataWrite packet)
    (h : step w s a = some t) : t.worker = s.worker ∧
      (t.head w = s.head w ∨ (s.head w = none ∧ t.head w = some packetHead)) := by
  rcases ha with rfl | rfl | ⟨packet, rfl⟩ <;> obtain ⟨-, rfl⟩ := guarded_eq_some_iff.mp h <;>
    refine ⟨rfl, ?_⟩
  · exact .inl rfl
  · simp only [Race.head, Table.setRequestInTable, PMap.orInsert_self, Option.map_some]
    cases s.table w.id with
    | none => exact .inr ⟨rfl, rfl⟩
    | some entry => exact .inl rfl
  · left
    simp only [Race.head, Table.writeBodyPacket]
    cases he : s.table w.id with
    | none => simp [he]
    | some entry => simp

/-- Once the worker has written, a head can only stay, or be a packet's. -/
theorem head_after_written {w : Setting M H L C W} {m s : Race L W} {as : List Action}
    (run : exec (step w) m as = some s) (hm : m.worker = .written) :
    s.head w = m.head w ∨ (m.head w = none ∧ s.head w = some packetHead) := by
  have : s.worker = .written ∧
      (s.head w = m.head w ∨ (m.head w = none ∧ s.head w = some packetHead)) := by
    refine exec_invariant (P := fun s : Race L W => s.worker = .written ∧
      (s.head w = m.head w ∨ (m.head w = none ∧ s.head w = some packetHead)))
      ⟨hm, .inl rfl⟩ ?_ run
    intro t a u ⟨hw, hhead⟩ hstep
    cases a with
    | dataCheck | dataSet | dataWrite packet =>
      obtain ⟨hworker, hdata⟩ := data_step (by simp) hstep
      refine ⟨hworker.trans hw, ?_⟩
      rcases hdata with hsame | ⟨hnone, hpacket⟩
      · rwa [hsame]
      · rcases hhead with hsame | ⟨hm, -⟩
        · exact .inr ⟨hsame ▸ hnone, hpacket⟩
        · exact .inr ⟨hm, hpacket⟩
    | workerCheck | workerComplete | workerLookup | workerCreate =>
      obtain ⟨hpc, -⟩ := guarded_eq_some_iff.mp hstep
      simp [hw] at hpc
  exact this.2

/-- Before the worker has written, an entry is a packet's, stored in memory. -/
structure Unwritten (w : Setting M H L C W) (s : Race L W) : Prop where
  head : ∀ head, s.head w = some head → head = packetHead
  seen : s.worker = .checked true → s.head w ≠ none

theorem unwritten_run {w : Setting M H L C W} {s : Race L W} {as : List Action}
    (run : exec (step w) {} as = some s) : s.worker ≠ .written → Unwritten w s := by
  refine exec_invariant (P := fun s : Race L W => s.worker ≠ .written → Unwritten w s)
    (fun _ => ⟨fun _ h => (by cases h), fun h => (by cases h)⟩) ?_ run
  intro t a u hu hstep hw
  cases a with
  | dataCheck | dataSet | dataWrite packet =>
    obtain ⟨hworker, hdata⟩ := data_step (by simp) hstep
    obtain ⟨hhead, hseen⟩ := hu (hworker ▸ hw)
    rcases hdata with hsame | ⟨-, hpacket⟩
    · exact ⟨hsame ▸ hhead, hsame ▸ hworker ▸ hseen⟩
    · exact ⟨fun head hh => (Option.some.inj (hpacket.symm.trans hh)).symm, by simp [hpacket]⟩
  | workerCheck =>
    obtain ⟨hpc, rfl⟩ := guarded_eq_some_iff.mp hstep
    refine ⟨(hu (by simp [hpc])).head, fun hset => ?_⟩
    simpa [Race.head, Table.isEntryPartialReponseSet, Option.isSome_iff_ne_none] using hset
  | workerComplete =>
    obtain ⟨-, rfl⟩ := guarded_eq_some_iff.mp hstep
    exact absurd rfl hw
  | workerLookup =>
    obtain ⟨hpc, hu'⟩ := guarded_eq_some_iff.mp hstep
    split at hu' <;> subst hu'
    · exact absurd rfl hw
    · exact ⟨(hu (by simp [hpc])).head, nofun⟩
  | workerCreate =>
    obtain ⟨-, rfl⟩ := guarded_eq_some_iff.mp hstep
    exact absurd rfl hw

/-! ## The worker's write -/

theorem getAdditionnalAttributes_eq (w : Setting M H L C W) :
    (getAdditionnalAttributes w.manager w.request.path w.request.method).1 =
      some (.storage w.body) := by
  rw [getAdditionnalAttributes_of_found w.found, w.stored]

theorem newRequestAttributes_eq (w : Setting M H L C W) :
    (newRequestAttributes w.manager w.request.path w.request.method).1 =
      some (.storage w.body) := by
  rw [newRequestAttributes_of_found w.found, w.stored]

/-- Files are created, or none is needed. -/
def FileReady (w : Setting M H L C W) : Prop :=
  w.body = .file → ∃ writer, w.creation = .created writer

/-- A completed entry keeps the raw path and no arguments. -/
theorem settled_complete_iff (w : Setting M H L C W) (entry : PartialReq L W)
    (hargs : entry.args = none) :
    Settled w (PartialReq.complete (completion w.config w.request w.uuid w.creation
      (getAdditionnalAttributes w.manager w.request.path w.request.method)) entry).head ↔
      ¬ HasQuery w.request.path ∧ FileReady w := by
  constructor
  · intro h
    refine ⟨fun hq => ?_, fun hb => ?_⟩
    · have hp := h.path
      simp only [PartialReq.head, PartialReq.complete, completion, Option.some.injEq] at hp
      exact parseArgs_path_ne hq hp.symm
    · have hf := h.fileOpened
      simp only [PartialReq.head, PartialReq.complete, completion, getAdditionnalAttributes_eq, hb,
        buildTempStageFileStoragePath, Option.bind_some, DataManagement.isBodyStorage] at hf
      cases hc : w.creation with
      | created writer => exact ⟨writer, rfl⟩
      | createFailed => simp [hc] at hf
      | handleFailed => simp [hc] at hf
  · intro ⟨hq, hf⟩
    have hparse := parseArgs_of_not_hasQuery hq
    have hstorage : (buildTempStageFileStoragePath w.config w.request.headers w.uuid w.creation
        (some (.storage w.body))).isSome = decide (w.body = .file) := by
      cases hb : w.body with
      | inMemory => rfl
      | file =>
        obtain ⟨writer, hc⟩ := hf hb
        simp [buildTempStageFileStoragePath, DataManagement.isBodyStorage, hc]
    refine ⟨by rw [hparse]; rfl, by rw [hparse]; exact hargs, rfl, rfl, ?_, ?_⟩ <;>
      simp only [PartialReq.head, PartialReq.complete, completion, getAdditionnalAttributes_eq,
        Option.isSome_map] <;> exact hstorage

/-- A filled entry keeps the raw path, no arguments and no file. -/
theorem settled_fill_iff (w : Setting M H L C W) (entry : PartialReq L W)
    (hhead : entry.head = packetHead) :
    Settled w (entry.fill w.request.method w.request.path w.request.headers
      w.request.contentLength).head ↔ ¬ HasQuery w.request.path ∧ w.body = .inMemory := by
  have hargs : entry.args = none := congrArg Head.args hhead
  have hstorage : entry.storagePath = none := congrArg Head.storagePath hhead
  have hfile : entry.fileOpened = none := congrArg Head.fileOpened hhead
  constructor
  · intro h
    refine ⟨fun hq => ?_, ?_⟩
    · have hp := h.path
      simp only [PartialReq.head, PartialReq.fill, Option.some.injEq] at hp
      exact parseArgs_path_ne hq hp.symm
    · have hs := h.storagePath
      simp only [PartialReq.head, PartialReq.fill, hstorage] at hs
      cases hb : w.body with
      | inMemory => rfl
      | file => simp [hb] at hs
  · intro ⟨hq, hb⟩
    have hparse := parseArgs_of_not_hasQuery hq
    exact ⟨by rw [hparse]; rfl, by rw [hparse]; exact hargs, rfl, rfl,
      by simp [PartialReq.head, PartialReq.fill, hstorage, hb],
      by simp [PartialReq.head, PartialReq.fill, hfile, hb]⟩

/-- What the worker leaves when it enters the request itself. -/
theorem head_of_workerCreate {w : Setting M H L C W} {m m' : Race L W}
    (h : step w m .workerCreate = some m') (habsent : m.table w.id = none) :
    (FileReady w → ∃ head, m'.head w = some head ∧ Settled w head) ∧
      ∀ head, m'.head w = some head → head.path = some (ReqArgs.parseArgs w.request.path).1 ∧
        head.args = (ReqArgs.parseArgs w.request.path).2 ∧
        head.method = some w.request.method ∧ head.headers = some w.request.headers ∧
        (head.fileOpened.isSome = decide (w.body = .file) → FileReady w) := by
  obtain ⟨-, rfl⟩ := guarded_eq_some_iff.mp h
  have hhead : ∀ storage, newEntryStorage w.config w.request.headers w.uuid w.creation
      (some (.storage w.body)) = some storage → Race.head w { m with
        table := m.table.addPartialRequestAbsent w.config w.id w.request.method
          (newRequestAttributes w.manager w.request.path w.request.method).1
          (newRequestAttributes w.manager w.request.path w.request.method).2
          w.request.headers w.request.path w.request.contentLength
          (!w.request.moreFrames) w.uuid w.creation
        worker := .written } =
      some ⟨some (ReqArgs.parseArgs w.request.path).1, (ReqArgs.parseArgs w.request.path).2,
        some w.request.method, some w.request.headers, storage.1, storage.2⟩ := by
    intro storage hs
    simp [Race.head, Table.addPartialRequestAbsent, newRequestAttributes_eq, hs, habsent,
      PartialReq.new, PartialReq.head]
  cases hs : newEntryStorage w.config w.request.headers w.uuid w.creation
      (some (.storage w.body)) with
  | none =>
    constructor
    · intro hf
      cases hb : w.body with
      | inMemory => simp [newEntryStorage, hb, DataManagement.isBodyStorage] at hs
      | file =>
        obtain ⟨writer, hc⟩ := hf hb
        simp [newEntryStorage, hb, hc, DataManagement.isBodyStorage] at hs
    · intro head hh
      simp [Race.head, Table.addPartialRequestAbsent, newRequestAttributes_eq, hs, habsent] at hh
  | some storage =>
    specialize hhead storage hs
    constructor
    · intro hf
      have hshape : storage.1.isSome = decide (w.body = .file) ∧
          storage.2.isSome = decide (w.body = .file) := by
        cases hb : w.body with
        | inMemory =>
          simp only [newEntryStorage, hb, DataManagement.isBodyStorage, Option.bind_some,
            Option.some.injEq] at hs
          simp [← hs]
        | file =>
          obtain ⟨writer, hc⟩ := hf hb
          simp only [newEntryStorage, hb, hc, DataManagement.isBodyStorage, Option.bind_some,
            Option.some.injEq] at hs
          simp [← hs]
      exact ⟨_, hhead, rfl, rfl, rfl, rfl, hshape.1, hshape.2⟩
    · intro head hh
      obtain rfl := Option.some.inj (hhead.symm.trans hh)
      refine ⟨rfl, rfl, rfl, rfl, fun hfile hb => ?_⟩
      simp only [newEntryStorage, hb, DataManagement.isBodyStorage, Option.bind_some] at hs
      cases hc : w.creation with
      | created writer => exact ⟨writer, rfl⟩
      | createFailed =>
        simp only [hc, Option.some.injEq] at hs
        simp [← hs, hb] at hfile
      | handleFailed => simp [hc] at hs

/-- The write that ends the worker's part leaves a settled head exactly when
nothing raced with it. -/
theorem settled_iff_noRace {w : Setting M H L C W} {m m' : Race L W} {a : Action}
    (hun : Unwritten w m) (hm : m.worker ≠ .written) (hstep : step w m a = some m')
    (hm' : m'.worker = .written) :
    (∃ head, m'.head w = some head ∧ Settled w head) ↔ NoRace w m := by
  cases a with
  | dataCheck | dataSet | dataWrite packet =>
    obtain ⟨hworker, -⟩ := data_step (by simp) hstep
    exact absurd (hworker ▸ hm') hm
  | workerCheck =>
    obtain ⟨-, rfl⟩ := guarded_eq_some_iff.mp hstep
    cases hm'
  | workerComplete =>
    obtain ⟨hpc, rfl⟩ := guarded_eq_some_iff.mp hstep
    cases hentry : m.table w.id with
    | none => exact absurd (by simp [Race.head, hentry]) (hun.seen hpc)
    | some entry =>
      have hhead := hun.head entry.head (by simp [Race.head, hentry])
      have hiff := settled_complete_iff w entry (congrArg Head.args hhead)
      simp only [Race.head, Table.completeRequestEntryInTable, PMap.modify_self, hentry,
        Option.map_some, Option.some.injEq, exists_eq_left', NoRace, hpc]
      rw [hiff]
      simp [FileReady]
  | workerLookup =>
    obtain ⟨hpc, hres⟩ := guarded_eq_some_iff.mp hstep
    cases hentry : m.table w.id with
    | none =>
      simp only [Table.addPartialRequestFound, hentry, Option.map_none] at hres
      subst hres
      cases hm'
    | some entry =>
      have hhead := hun.head entry.head (by simp [Race.head, hentry])
      simp only [Table.addPartialRequestFound, hentry, Option.map_some] at hres
      subst hres
      simp only [Race.head, PMap.modify_self, hentry, Option.map_some, Option.some.injEq,
        exists_eq_left', NoRace, hpc]
      rw [settled_fill_iff w entry hhead]
      constructor
      · intro ⟨hq, hb⟩
        exact ⟨.inr ⟨hq, .inr hb⟩, fun hfile => by simp [hb] at hfile⟩
      · rintro ⟨hn | ⟨hq, hset | hb⟩, -⟩
        · cases hn
        · cases hset
        · exact ⟨hq, hb⟩
  | workerCreate =>
    have hpc : m.worker = .creating := (guarded_eq_some_iff.mp hstep).1
    cases hentry : m.table w.id with
    | none =>
      obtain ⟨hready, hshape⟩ := head_of_workerCreate hstep hentry
      simp only [NoRace, hentry, true_or, true_and]
      constructor
      · intro ⟨head, hh, hset⟩
        exact (hshape head hh).2.2.2.2 hset.fileOpened
      · exact hready
    | some entry =>
      have hhead := hun.head entry.head (by simp [Race.head, hentry])
      obtain ⟨-, rfl⟩ := guarded_eq_some_iff.mp hstep
      have hno : NoRace w m ↔ ¬ HasQuery w.request.path ∧ w.body = .inMemory := by
        simp only [NoRace, hentry, hpc, reduceCtorEq, false_or, and_assoc, and_congr_right_iff,
          and_iff_left_iff_imp]
        rintro - hb hfile
        simp [hb] at hfile
      rw [hno, ← settled_fill_iff w entry hhead]
      cases hs : newEntryStorage w.config w.request.headers w.uuid w.creation
          (some (.storage w.body)) with
      | none =>
        have hfile : w.body = .file := by
          cases hb : w.body with
          | inMemory => simp [newEntryStorage, hb, DataManagement.isBodyStorage] at hs
          | file => rfl
        simp only [Race.head, Table.addPartialRequestAbsent, newRequestAttributes_eq, hs, hentry,
          Option.map_some, Option.some.injEq, exists_eq_left']
        rw [settled_fill_iff w entry hhead]
        simp only [hfile, reduceCtorEq, and_false, iff_false]
        intro hset
        exact packetHead_not_full (hhead ▸ hset.full)
      | some storage =>
        simp [Race.head, Table.addPartialRequestAbsent, newRequestAttributes_eq, hs, hentry]

/-! ## The event -/

/-- Packets after the worker's write go through. -/
theorem packets_run {w : Setting M H L C W} (packets : List Bytes) {s : Race L W} {head : Head W}
    (hs : s.head w = some head) (hn : s.network = .idle) (hw : s.worker = .written) :
    ∃ t, exec (step w) s (packets.flatMap fun packet => [.dataCheck, .dataWrite packet]) = some t ∧
      t.head w = some head := by
  induction packets generalizing s with
  | nil => exact ⟨s, rfl, hs⟩
  | cons packet packets ih =>
    obtain ⟨entry, hentry, rfl⟩ := Option.map_eq_some_iff.mp hs
    let t : Race L W := { s with
      table := (s.table.writeBodyPacket w.id packet false).1, network := .idle }
    have ht : t.head w = some entry.head := by
      simp [t, Race.head, Table.writeBodyPacket, hentry]
    obtain ⟨u, hu, hhead⟩ := ih ht rfl hw
    refine ⟨u, ?_, hhead⟩
    rw [List.flatMap_cons, exec_append]
    have hcheck : step w s .dataCheck = some { s with network := .entered } := by
      simp [step, guarded, hn, Table.isEntryPartialReponseSet, hentry]
    have hwrite : step w { s with network := .entered } (.dataWrite packet) = some t := rfl
    simp only [exec_cons, hcheck, Option.bind_some, hwrite, exec_nil]
    exact hu

/-- The state in which the worker is about to enter the request first. -/
theorem workerFirst_start (w : Setting M H L C W) (packets : List Bytes) :
    ∃ m m' : Race L W, m.table w.id = none ∧ step w m .workerCreate = some m' ∧
      m'.worker = .written ∧ m'.network = .idle ∧
      exec (step w) {} (workerFirst packets) = exec (step w) m'
        (packets.flatMap fun packet => [.dataCheck, .dataWrite packet]) :=
  ⟨{ worker := .creating }, _, rfl, rfl, rfl, rfl, rfl⟩

section Runs
variable {w : Setting M H L C W} {m m' s : Race L W} {a : Action} {pre post : List Action}

/-- The event of a run that shows no race has a settled head, from the worker's
write on. -/
theorem AsIfWorkerFirst.settled {packets : List Bytes} (h : AsIfWorkerFirst w packets s)
    (hm' : m'.worker = .written) (hpost : exec (step w) m' post = some s) :
    ∃ head, m'.head w = some head ∧ Settled w head := by
  obtain ⟨event, reference, first, hev, hrun, href, hsame, hstored, -⟩ := h
  obtain ⟨f, f', hf, hfstep, hfw, -, hfirst⟩ := workerFirst_start w packets
  rw [hfirst] at hrun
  -- both heads are full, so neither is a packet's
  have hfull : ∀ {u v : Race L W} {as : List Action} {event : FinishedEvent W},
      exec (step w) u as = some v → u.worker = .written → v.finishedEvent w = some event →
      u.head w = some (eventHead event) := by
    intro u v as event hrun hu hev
    have hv := finishedEvent_head hev
    rcases head_after_written hrun hu with hsame | ⟨-, hp⟩
    · rw [← hsame, hv]
    · rw [hv] at hp
      exact absurd (Option.some.inj hp ▸ eventHead_full event) packetHead_not_full
  obtain ⟨hp, hargs, hmethod, hheaders, -⟩ :=
    (head_of_workerCreate hfstep hf).2 _ (hfull hrun hfw href)
  refine ⟨_, hfull hpost hm' hev, ?_, ?_, ?_, ?_, hstored.filePath, hstored.writer⟩
  · exact (congrArg some hsame.path).trans hp
  · exact hsame.args.trans hargs
  · exact (congrArg some hsame.method).trans hmethod
  · exact (congrArg some hsame.headers).trans hheaders

theorem asIfWorkerFirst_of_settled {head : Head W} (hh : m'.head w = some head)
    (hset : Settled w head) (hready : FileReady w) (hm' : m'.worker = .written)
    (hpost : exec (step w) m' post = some s) (packets : List Bytes) :
    AsIfWorkerFirst w packets s := by
  have hs : s.head w = some head := by
    rcases head_after_written hpost hm' with hsame | ⟨hnone, -⟩
    · rw [hsame, hh]
    · rw [hh] at hnone
      cases hnone
  obtain ⟨event, hev, heq⟩ := finishedEvent_of_full hs hset.full
  obtain ⟨f, f', hf, hfstep, hfw, hfn, hfirst⟩ := workerFirst_start w packets
  obtain ⟨rhead, hrhead, hrset⟩ := (head_of_workerCreate hfstep hf).1 hready
  obtain ⟨first, hfrun, hfhead⟩ := packets_run packets hrhead hfn hfw
  obtain ⟨reference, href, hreq⟩ := finishedEvent_of_full hfhead hrset.full
  have hsame : SameRequest event reference := by
    subst heq hreq
    refine ⟨?_, hset.args.trans hrset.args.symm, ?_, ?_, ?_, ?_⟩
    · exact Option.some.inj (hset.path.trans hrset.path.symm)
    · exact Option.some.inj (hset.method.trans hrset.method.symm)
    · exact Option.some.inj (hset.headers.trans hrset.headers.symm)
    · exact hset.storagePath.trans hrset.storagePath.symm
    · exact hset.fileOpened.trans hrset.fileOpened.symm
  refine ⟨event, reference, first, hev, hfirst ▸ hfrun, href, hsame, ?_, ?_⟩
  · subst heq
    exact ⟨hset.storagePath, hset.fileOpened⟩
  · rw [hsame.path, hsame.method]

/-- The finished event is the one of a worker that came first exactly when
nothing raced with the worker's write. -/
theorem finishedEvent_iff (hpre : exec (step w) {} pre = some m) (hm : m.worker ≠ .written)
    (hstep : step w m a = some m') (hm' : m'.worker = .written)
    (hpost : exec (step w) m' post = some s) :
    AsIfWorkerFirst w (packetsOf (pre ++ a :: post)) s ↔ NoRace w m := by
  have hiff := settled_iff_noRace (unwritten_run hpre hm) hm hstep hm'
  constructor
  · intro h
    exact hiff.mp (h.settled hm' hpost)
  · intro h
    obtain ⟨head, hh, hset⟩ := hiff.mpr h
    exact asIfWorkerFirst_of_settled hh hset h.2 hm' hpost _

end Runs

/-- One POST route at `/a`. -/
def uploadManager (body : BodyStorage) : RouteManager Unit Unit Unit Unit where
  routesFormats :=
    { entries := [("/a", [⟨.POST, none, [], [], "/a", some (.storage body)⟩])]
      keys_nodup := by simp
      path_eq := by simp
      methods_nodup := by simp }
  streamSessions := []

def upload (body : BodyStorage) : Setting Unit Unit Unit Unit Unit where
  config := ⟨⟨[47]⟩⟩
  manager := uploadManager body
  id := ("c", 0)
  scid := [1]
  request := ⟨"/a", .POST, [], none, false⟩
  route := ⟨.POST, none, [], [], "/a", some (.storage body)⟩
  body := body
  uuid := "u"
  creation := .created ()
  found := rfl
  stored := rfl

/-- The same with a query string. -/
def uploadWithQuery (body : BodyStorage) : Setting Unit Unit Unit Unit Unit where
  config := ⟨⟨[47]⟩⟩
  manager := uploadManager body
  id := ("c", 0)
  scid := [1]
  request := ⟨"/a?b=c", .POST, [], none, false⟩
  route := ⟨.POST, none, [], [], "/a", some (.storage body)⟩
  body := body
  uuid := "u"
  creation := .created ()
  found := rfl
  stored := rfl

/-- The first packet comes before the worker's question. -/
def packetFirst : List Action := [.dataCheck, .dataSet, .dataWrite [1], .workerCheck]

/-- The first packet comes between the worker's question and its write. -/
def packetBetween : List Action := [.workerCheck, .dataCheck, .dataSet, .dataWrite [1]]

theorem finishedEvent_iff_packetFirst :
    ∃ s, exec (step (upload .file)) {} (packetFirst ++ [.workerComplete]) = some s ∧
      AsIfWorkerFirst (upload .file) [[1]] s :=
  ⟨_, rfl, (finishedEvent_iff (show exec _ _ packetFirst = some _ from rfl) nofun
    (show step _ _ .workerComplete = some _ from rfl) rfl
    (show exec _ _ [] = some _ from rfl)).mpr ⟨.inr ⟨by decide, .inl rfl⟩, fun _ => ⟨(), rfl⟩⟩⟩

/-- A first packet before the worker leaves the query string in the path, and one
between the worker's two accesses leaves an upload to a file in memory. -/
theorem packet_race_changes_event :
    (∃ s, exec (step (uploadWithQuery .inMemory)) {} (packetFirst ++ [.workerComplete]) = some s ∧
      ¬ AsIfWorkerFirst (uploadWithQuery .inMemory) [[1]] s) ∧
    ∃ s, exec (step (upload .file)) {} (packetBetween ++ [.workerLookup]) = some s ∧
      ¬ AsIfWorkerFirst (upload .file) [[1]] s := by
  refine ⟨⟨_, rfl, fun h => ?_⟩, ⟨_, rfl, fun h => ?_⟩⟩
  · obtain ⟨head, hh, hset⟩ := h.settled rfl (show exec _ _ [] = some _ from rfl)
    cases hh
    exact absurd hset.path (by decide)
  · obtain ⟨head, hh, hset⟩ := h.settled rfl (show exec _ _ [] = some _ from rfl)
    cases hh
    exact absurd hset.fileOpened (by decide)

end FacesHttp3.EntryRace
