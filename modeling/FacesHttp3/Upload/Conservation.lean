import FacesHttp3.Lib.Exec
import FacesHttp3.RequestsTable
import FacesHttp3.Upload.Filling

/-! # Uploads are conserved

The packets of a request body are received before and after the middlewares
continued and the request's storage was attached. Bytes received before are kept
in memory and put in front of the file, later ones are queued for the file
worker, who writes them whenever it likes. Here the operating system answers
every file operation with success; what becomes of the bytes is decided by
`conserved_iff`. -/

namespace FacesHttp3.Upload
open FacesHttp3.Lib FacesHttp3.Lib.Exec FacesHttp3.Request FacesHttp3.Router
open FacesHttp3.RequestsTable FacesHttp3.FileWriter

variable {M H L C K : Type}

/-- A request the middlewares accepted and the route its storage comes from. -/
structure Setting (M H L C : Type) where
  config : ServerConfig
  manager : RouteManager M H L C
  id : ReqId
  scid : Bytes
  request : Accepted
  route : RouteForm M H L
  body : BodyStorage
  uuid : String
  found : manager.getRoutesFromPathAndMethod request.path request.method =
    some (route, (ReqArgs.parseArgs request.path).2)
  stored : route.dataManagementType = some (.storage body)

/-- Where the file is stored. -/
def Setting.storagePath (u : Setting M H L C) : OsPath :=
  u.config.fileStoragePath.push (storageFileName u.request.headers u.uuid)

/-- The request in the table, the file writer and the queue of its worker, and
the event once the request is finished. -/
structure State (L K : Type) where
  table : Table L Unit := PMap.empty
  attached : Bool := false
  writer : Option (FileWriterHandle K) := none
  queue : List Bytes := []
  event : Option (FinishedEvent Unit) := none

namespace State

/-- Carry out one effect of a table access, with the answers to the two file
operations there may be in it. Queued packets wait for the file worker. -/
def carryOut (prefixing finishing : GoodIo) (s : State L K) : Effect L Unit → State L K
  | .onData _ _ _ => s
  | .associateStreamWithNextListener => s
  | .transfertBytesFromTempFile () _ bytes =>
    { s with writer := s.writer.map fun handle =>
        ((Call.transfertBytesFromTempFile bytes prefixing.val).perform handle).handle }
  | .sendWritableItem () data => { s with queue := s.queue ++ [data] }
  | .finishReceived () received =>
    { s with writer := s.writer.map fun handle =>
        ((Call.finishReceived received finishing.val).perform handle).handle }

/-- Storage is attached in one step: an entry made by a packet is completed,
otherwise the worker creates the entry. -/
def attachStorage (u : Setting M H L C) (s : State L K) : State L K :=
  let table :=
    if s.table.isEntryPartialReponseSet u.id then
      s.table.completeRequestEntryInTable u.id (completion u.config u.request u.uuid (.created ())
        (getAdditionnalAttributes u.manager u.request.path u.request.method))
    else
      let attributes := newRequestAttributes u.manager u.request.path u.request.method
      s.table.addPartialRequestAbsent u.config u.id u.request.method attributes.1 attributes.2
        u.request.headers u.request.path u.request.contentLength (!u.request.moreFrames) u.uuid
        (.created ())
  let writer := match u.body with
    | .file => some (FileWriterHandle.new u.request.contentLength)
    | .inMemory => none
  { s with table, writer, attached := true }

/-- The network thread enters a request that is not in the table. -/
def enter (u : Setting M H L C) (s : State L K) : State L K :=
  if s.table.isEntryPartialReponseSet u.id then s
  else { s with table := s.table.setRequestInTable u.id }

def data (u : Setting M H L C) (packet : Bytes) (io : GoodIo) (s : State L K) : State L K :=
  let s := s.enter u
  let (table, _, effects) := s.table.writeBodyPacket u.id packet false
  effects.foldl (carryOut io io) { s with table }

/-- `build_route_event`, which removes the entry. -/
def finish (u : Setting M H L C) (prefixing finishing : GoodIo) (s : State L K) : State L K :=
  match s.table u.id with
  | some entry =>
    let (_, event, effects) := entry.buildRouteEvent u.id u.scid
    effects.foldl (carryOut prefixing finishing) { s with table := s.table.erase u.id, event }
  | none => s

/-- The file worker writes the next item of its queue. -/
def drain (io : GoodIo) (s : State L K) : Option (State L K) :=
  match s.queue with
  | [] => none
  | data :: queue => some { s with
      queue
      writer := s.writer.map fun handle =>
        ((Call.writeOnDisk data io.val).perform handle).handle }

end State

inductive Action
  | attach
  | data (packet : Bytes) (io : GoodIo)
  | finished (prefixing finishing : GoodIo)
  | drain (io : GoodIo)

def step (u : Setting M H L C) (s : State L K) : Action → Option (State L K)
  | .attach => guarded (s.attached = false ∧ s.event.isNone) (s.attachStorage u)
  | .data packet io => guarded (s.event.isNone) (s.data u packet io)
  | .finished prefixing finishing =>
    guarded (s.attached = true ∧ s.event.isNone) (s.finish u prefixing finishing)
  | .drain io => s.drain io

/-- The bytes of the packets of a run. -/
def received : List Action → Bytes
  | [] => []
  | .data packet _ :: as => packet ++ received as
  | _ :: as => received as

/-- The bytes received before the storage was attached. -/
def early : List Action → Bytes
  | [] => []
  | .attach :: _ => []
  | .data packet _ :: as => packet ++ early as
  | _ :: as => early as

/-- The event tells the length of the body; a body in memory is in the event, one
in a file is on the disk and its writer is complete. -/
structure Conserved (u : Setting M H L C) (bytes : Bytes) (s : State L K) : Prop where
  event : ∃ event, s.event = some event ∧ event.bytesWritten = bytes.length ∧
    (u.body = .inMemory → event.body = some bytes)
  file : u.body = .file → ∃ handle, s.writer = some handle ∧ Completed handle bytes

/-! ## Where the bytes are -/

/-- What is left of the bytes received before the file existed: they are put in
front of it under a path that is read as text. -/
def Setting.kept (u : Setting M H L C) (bytes : Bytes) : Bytes :=
  if u.storagePath.toStr.isSome then bytes else []

/-- Received in memory. -/
structure Buffered (bytes : Bytes) (entry : PartialReq L Unit) : Prop where
  dataManagementType : entry.dataManagementType = some (.storage .inMemory)
  body : entry.body = bytes
  written : entry.bodyWrittenSize = bytes.length

/-- Before the storage is attached. -/
structure Waiting (u : Setting M H L C) (bytes : Bytes) (s : State L K) : Prop where
  event : s.event = none
  queue : s.queue = []
  entry : (s.table u.id = none ∧ bytes = []) ∨
    ∃ entry, s.table u.id = some entry ∧ Buffered bytes entry

/-- The head of an entry with its storage. -/
structure Attached (u : Setting M H L C) (head : Head Unit) : Prop where
  full : head.Full
  storagePath : u.body = .file → head.storagePath = some u.storagePath
  fileOpened : head.fileOpened = if u.body = .file then some () else none

/-- An upload kept in memory. -/
structure InMemory (u : Setting M H L C) (bytes : Bytes) (s : State L K) : Prop where
  queue : s.queue = []
  entry : s.event = none →
    ∃ entry, s.table u.id = some entry ∧ Buffered bytes entry ∧ Attached u entry.head
  done : ∀ event, s.event = some event →
    event.bytesWritten = bytes.length ∧ event.body = some bytes

/-- The writer's content and the queue behind it make up `bytes`. -/
def Held (P : Bytes → FileWriterHandle K → Prop) (bytes : Bytes) (s : State L K) : Prop :=
  ∃ handle content, s.writer = some handle ∧ P content handle ∧ content ++ s.queue.flatten = bytes

/-- The early bytes `first` are still in the entry, or in front of the file. -/
def Stored (u : Setting M H L C) (first later : Bytes) (entry : PartialReq L Unit)
    (len : Nat × Bool) (s : State L K) : Prop :=
  (entry.body = [] ∧ Held (Filling len) (u.kept first ++ later) s) ∨
    (entry.body = first ∧ later = [] ∧ s.queue = [] ∧ Held (Filling len) [] s)

def Setting.declared (u : Setting M H L C) : Nat × Bool :=
  (u.request.contentLength.getD 0, u.request.contentLength.isSome)

/-- An upload stored in a file. -/
structure InFile (u : Setting M H L C) (first later : Bytes) (s : State L K) : Prop where
  entry : s.event = none → ∃ entry, s.table u.id = some entry ∧
    entry.dataManagementType = some (.storage .file) ∧ Attached u entry.head ∧
    entry.bodyWrittenSize = first.length + later.length ∧
    Stored u first later entry u.declared s
  done : ∀ event, s.event = some event → event.bytesWritten = first.length + later.length ∧
    Held (Filled (first.length + later.length, true)) (u.kept first ++ later) s

@[simp] theorem kept_nil (u : Setting M H L C) : u.kept [] = [] := by simp [Setting.kept]

theorem kept_length_le (u : Setting M H L C) (bytes : Bytes) :
    (u.kept bytes).length ≤ bytes.length := by
  unfold Setting.kept
  split <;> simp

theorem kept_eq_iff (u : Setting M H L C) (bytes : Bytes) :
    u.kept bytes = bytes ↔ u.storagePath.toStr.isSome ∨ bytes = [] := by
  unfold Setting.kept
  split
  · simp [*]
  · simp [*, eq_comm]

/-! ## Packets -/

section Steps
variable {u : Setting M H L C} {s t : State L K} {bytes first later : Bytes}
  {entry : PartialReq L Unit}

theorem enter_of_none (h : s.table u.id = none) :
    s.enter u = { s with table := s.table.setRequestInTable u.id } := by
  simp [State.enter, Table.isEntryPartialReponseSet, h]

theorem enter_of_some (h : s.table u.id = some entry) : s.enter u = s := by
  simp [State.enter, Table.isEntryPartialReponseSet, h]

theorem data_eq (packet : Bytes) (io : GoodIo) (h : (s.enter u).table u.id = some entry) :
    s.data u packet io = (entry.writeBodyPacket packet false).2.2.foldl (State.carryOut io io)
      { s.enter u with
        table := (s.enter u).table.insert u.id (entry.writeBodyPacket packet false).1 } := by
  simp [State.data, Table.writeBodyPacket, h]

/-- A packet kept in memory has no effects. -/
theorem Buffered.writeBodyPacket (h : Buffered bytes entry) (packet : Bytes) :
    Buffered (bytes ++ packet) (entry.writeBodyPacket packet false).1 ∧
      (entry.writeBodyPacket packet false).2.2 = [] := by
  simp only [PartialReq.writeBodyPacket, h.dataManagementType]
  refine ⟨⟨h.dataManagementType, ?_, ?_⟩, trivial⟩
  · simp [PartialReq.extendData, h.body]
  · simp [PartialReq.extendData, h.written]

theorem buffered_new : Buffered []
    (PartialReq.new none (some default) none none none [] none none false : PartialReq L Unit) :=
  ⟨rfl, rfl, rfl⟩

theorem data_of_buffered (packet : Bytes) (io : GoodIo)
    (hentry : (s.enter u).table u.id = some entry) (h : Buffered bytes entry) :
    s.data u packet io = { s.enter u with
      table := (s.enter u).table.insert u.id (entry.writeBodyPacket packet false).1 } := by
  rw [data_eq packet io hentry, (h.writeBodyPacket packet).2]
  rfl

theorem waiting_data (h : Waiting u bytes s) (packet : Bytes) (io : GoodIo) :
    Waiting u (bytes ++ packet) (s.data u packet io) := by
  rcases h.entry with ⟨hnone, rfl⟩ | ⟨entry, hentry, hb⟩
  · have henter := enter_of_none hnone
    have hnew : (s.enter u).table u.id =
        some (PartialReq.new none (some default) none none none [] none none false) := by
      rw [henter]
      simp [Table.setRequestInTable, hnone]
    rw [data_of_buffered packet io hnew buffered_new, henter]
    exact ⟨h.event, h.queue, .inr ⟨_, PMap.insert_self _ _ _,
      (buffered_new.writeBodyPacket packet).1⟩⟩
  · have henter := enter_of_some hentry
    rw [data_of_buffered packet io (by rw [henter, hentry]) hb, henter]
    exact ⟨h.event, h.queue, .inr ⟨_, PMap.insert_self _ _ _, (hb.writeBodyPacket packet).1⟩⟩

theorem inMemory_data (h : InMemory u bytes s) (he : s.event = none) (packet : Bytes)
    (io : GoodIo) : InMemory u (bytes ++ packet) (s.data u packet io) := by
  obtain ⟨entry, hentry, hb, hhead⟩ := h.entry he
  have henter := enter_of_some hentry
  rw [data_of_buffered packet io (by rw [henter, hentry]) hb, henter]
  refine ⟨h.queue, fun _ => ⟨_, PMap.insert_self _ _ _, (hb.writeBodyPacket packet).1, ?_⟩, ?_⟩
  · rw [writeBodyPacket_head]
    exact hhead
  · intro event hev
    rw [show s.event = some event from hev] at he
    cases he

/-! ## The file -/

theorem held_perform {P Q : Bytes → FileWriterHandle K → Prop} (h : Held P bytes s)
    (f : FileWriterHandle K → FileWriterHandle K)
    (hf : ∀ handle content, P content handle → content ++ s.queue.flatten = bytes →
      Q content (f handle)) : Held Q bytes { s with writer := s.writer.map f } := by
  obtain ⟨handle, content, hw, hp, hc⟩ := h
  exact ⟨f handle, content, by simp [hw], hf handle content hp hc, hc⟩

theorem held_send {P : Bytes → FileWriterHandle K → Prop} (h : Held P bytes s) (packet : Bytes) :
    Held P (bytes ++ packet) { s with queue := s.queue ++ [packet] } := by
  obtain ⟨handle, content, hw, hp, rfl⟩ := h
  exact ⟨handle, content, hw, hp, by simp [List.append_assoc]⟩

/-- The room an upload of `total` bytes has. -/
theorem declared_room {total n : Nat}
    (hdecl : u.request.contentLength = none ∨ u.request.contentLength = some total)
    (hn : n ≤ total) : u.declared.2 = true → n ≤ u.declared.1 := by
  rcases hdecl with h | h <;> simp [Setting.declared, h, hn]

/-- The first use of the file moves the early bytes in front of it. -/
theorem flush_held {len : Nat × Bool} (h : Stored u first later entry len s)
    (hfile : u.body = .file) (hhead : Attached u entry.head)
    (hroom : len.2 = true → first.length ≤ len.1) (prefixing finishing : GoodIo) :
    entry.flushAndPrefixWithTempBufferIfAnyBytes.1.body = [] ∧
      entry.flushAndPrefixWithTempBufferIfAnyBytes.1.bodyWrittenSize = entry.bodyWrittenSize ∧
      ∃ writer, entry.flushAndPrefixWithTempBufferIfAnyBytes.2.foldl
          (State.carryOut prefixing finishing) s = { s with writer } ∧
        Held (Filling len) (u.kept first ++ later) { s with writer } := by
  unfold PartialReq.flushAndPrefixWithTempBufferIfAnyBytes
  rcases h with ⟨hbody, hheld⟩ | ⟨hbody, rfl, hqueue, hheld⟩
  · simp only [hbody, List.isEmpty_nil, if_true]
    exact ⟨trivial, trivial, s.writer, rfl, hheld⟩
  cases hfirst : first.isEmpty with
  | true =>
    obtain rfl : first = [] := by simpa using hfirst
    simp only [hbody, List.isEmpty_nil, if_true]
    exact ⟨trivial, trivial, s.writer, rfl, by simpa using hheld⟩
  | false =>
    have hpath : entry.storagePath = some u.storagePath := hhead.storagePath hfile
    have hopen : entry.fileOpened = some () := by
      have := hhead.fileOpened
      rwa [if_pos hfile] at this
    have hne : first ≠ [] := by simpa using hfirst
    simp only [hbody, hfirst, Bool.false_eq_true, if_false, hpath, hopen, List.append_nil]
    cases hstr : u.storagePath.toStr with
    | none =>
      -- the early bytes are gone
      refine ⟨rfl, rfl, s.writer, rfl, ?_⟩
      simpa [Setting.kept, hstr] using hheld
    | some path =>
      refine ⟨rfl, rfl, _, rfl, ?_⟩
      obtain ⟨handle, content, hw, hfill, hc⟩ := hheld
      obtain rfl : content = [] := by simpa [hqueue] using hc
      have hroom' : len.2 = true → ([] : Bytes).length + first.length ≤ len.1 := by
        simpa using hroom
      refine ⟨_, first ++ [], by rw [hw]; rfl, ?_, by simp [Setting.kept, hstr, hqueue]⟩
      exact (settle_fills (transfertBytesFromTempFile_fills prefixing.2 hne hroom')
        hfill).toFilling

theorem onData_foldl (packet : Bytes) (isEnd : Bool) (prefixing finishing : GoodIo) :
    (entry.onData packet isEnd).foldl (State.carryOut prefixing finishing) s = s := by
  unfold PartialReq.onData
  split <;> rfl

theorem writeFile_eq (h : entry.fileOpened = some ()) (packet : Bytes) (isEnd : Bool) :
    entry.writeFile packet isEnd =
      ({ entry with isEnd, bodyWrittenSize := entry.bodyWrittenSize + packet.length },
        [.sendWritableItem () packet]) := by
  simp [PartialReq.writeFile, h]

theorem Attached.opened (h : Attached u entry.head) (hfile : u.body = .file) :
    entry.fileOpened = some () := by
  have := h.fileOpened
  rwa [if_pos hfile] at this

theorem inFile_data {total : Nat} (h : InFile u first later s) (he : s.event = none)
    (hfile : u.body = .file)
    (hdecl : u.request.contentLength = none ∨ u.request.contentLength = some total)
    (hle : first.length ≤ total) (packet : Bytes) (io : GoodIo) :
    InFile u first (later ++ packet) (s.data u packet io) := by
  obtain ⟨entry, hentry, hdata, hhead, hwritten, hstored⟩ := h.entry he
  have henter := enter_of_some hentry
  rw [data_eq packet io (by rw [henter, hentry]), henter]
  let entered : State L K :=
    { s with table := s.table.insert u.id (entry.writeBodyPacket packet false).1 }
  have hstored' : Stored u first later entry u.declared entered := hstored
  obtain ⟨hbody, hsize, writer, hfold, hheld⟩ :=
    flush_held hstored' hfile hhead (declared_room hdecl hle) io io
  have hflushed : Attached u entry.flushAndPrefixWithTempBufferIfAnyBytes.1.head := by
    rw [flush_head]
    exact hhead
  have hwrite := writeFile_eq (hflushed.opened hfile) packet false
  have hfinal : (entry.writeBodyPacket packet false).2.2.foldl (State.carryOut io io) entered =
      { entered with writer, queue := s.queue ++ [packet] } := by
    have heffects : (entry.writeBodyPacket packet false).2.2 = entry.onData packet false ++
        .associateStreamWithNextListener ::
          (entry.flushAndPrefixWithTempBufferIfAnyBytes.2 ++ [.sendWritableItem () packet]) := by
      simp only [PartialReq.writeBodyPacket, hdata, hwrite]
    rw [heffects, List.foldl_append, onData_foldl, List.foldl_cons, List.foldl_append]
    rw [show State.carryOut io io entered .associateStreamWithNextListener = entered from rfl, hfold]
    rfl
  rw [hfinal]
  have hentry' : (entry.writeBodyPacket packet false).1 =
      { entry.flushAndPrefixWithTempBufferIfAnyBytes.1 with
        isEnd := false
        bodyWrittenSize := entry.bodyWrittenSize + packet.length } := by
    simp only [PartialReq.writeBodyPacket, hdata, hwrite, hsize]
  refine ⟨fun _ => ⟨_, PMap.insert_self _ _ _, ?_, ?_, ?_, .inl ⟨?_, ?_⟩⟩, ?_⟩
  · rw [hentry']
    exact (flush_dataManagementType entry).trans hdata
  · rw [writeBodyPacket_head]
    exact hhead
  · rw [hentry']
    simp [hwritten, Nat.add_assoc]
  · rw [hentry']
    exact hbody
  · have := held_send hheld packet
    rwa [List.append_assoc] at this
  · intro event hev
    rw [show s.event = some event from hev] at he
    cases he

/-! ## The end of the request -/

theorem toRouteEvent_eq (hfull : entry.head.Full) (id : ReqId) (scid : Bytes) :
    ∃ event, (entry.toRouteEvent id scid).2.1 = some event ∧
      event.bytesWritten = entry.bodyWrittenSize ∧ event.body = some entry.body ∧
      (entry.toRouteEvent id scid).2.2 = match entry.fileOpened with
        | some writer => [.finishReceived writer entry.bodyWrittenSize]
        | none => [] := by
  obtain ⟨hm, hh, hp⟩ := hfull
  obtain ⟨method, hmethod⟩ := Option.isSome_iff_exists.mp hm
  obtain ⟨headers, hheaders⟩ := Option.isSome_iff_exists.mp hh
  obtain ⟨path, hpath⟩ := Option.isSome_iff_exists.mp hp
  have hm' : entry.method = some method := hmethod
  have hh' : entry.headers = some headers := hheaders
  have hp' : entry.path = some path := hpath
  simp only [PartialReq.toRouteEvent, hm', hh', hp']
  refine ⟨_, rfl, rfl, rfl, ?_⟩
  cases entry.fileOpened <;> rfl

theorem inMemory_finish (h : InMemory u bytes s) (he : s.event = none) (hmem : u.body = .inMemory)
    (prefixing finishing : GoodIo) : InMemory u bytes (s.finish u prefixing finishing) := by
  obtain ⟨entry, hentry, hb, hhead⟩ := h.entry he
  obtain ⟨event, hev, hlen, hbody, heffects⟩ := toRouteEvent_eq hhead.full u.id u.scid
  have hclosed : entry.fileOpened = none := by
    have := hhead.fileOpened
    rwa [if_neg (by simp [hmem])] at this
  have hfinish : s.finish u prefixing finishing =
      { s with table := s.table.erase u.id, event := some event } := by
    simp [State.finish, hentry, PartialReq.buildRouteEvent, hb.dataManagementType, hev, heffects,
      hclosed]
  rw [hfinish]
  refine ⟨h.queue, nofun, fun event' hevent => ?_⟩
  obtain rfl : event = event' := Option.some.inj hevent
  exact ⟨hlen.trans hb.written, by rw [hbody, hb.body]⟩

/-- The upload is all received: its size is the one declared. -/
theorem inFile_finish {total : Nat} (h : InFile u first later s) (he : s.event = none)
    (hfile : u.body = .file)
    (hdecl : u.request.contentLength = none ∨ u.request.contentLength = some total)
    (htotal : first.length + later.length = total) (prefixing finishing : GoodIo) :
    InFile u first later (s.finish u prefixing finishing) := by
  obtain ⟨entry, hentry, hdata, hhead, hwritten, hstored⟩ := h.entry he
  have hflushed : Attached u entry.flushAndPrefixWithTempBufferIfAnyBytes.1.head := by
    rw [flush_head]
    exact hhead
  obtain ⟨event, hev, hlen, -, heffects⟩ := toRouteEvent_eq hflushed.full u.id u.scid
  let finished : State L K := { s with table := s.table.erase u.id, event := some event }
  have hstored' : Stored u first later entry u.declared finished := hstored
  obtain ⟨-, hsize, writer, hfold, hheld⟩ := flush_held hstored' hfile hhead
    (declared_room hdecl (by omega)) prefixing finishing
  rw [hsize, hwritten] at hlen
  rw [hflushed.opened hfile, hsize, hwritten] at heffects
  have hfinish : s.finish u prefixing finishing = { finished with
      writer := writer.map fun handle => ((Call.finishReceived (first.length + later.length)
        finishing.val).perform handle).handle } := by
    simp only [State.finish, hentry, PartialReq.buildRouteEvent, hdata, hev, heffects,
      List.foldl_append]
    rw [show ({ s with table := s.table.erase u.id, event := some event } : State L K) = finished
      from rfl, hfold]
    rfl
  rw [hfinish]
  refine ⟨nofun, fun event' hevent => ?_⟩
  obtain rfl : event = event' := Option.some.inj hevent
  refine ⟨hlen, held_perform hheld _ fun handle content hfill hc => ?_⟩
  refine finishReceived_fills finishing.2 hfill ?_ ?_
  · rcases hdecl with hd | hd
    · simp [Setting.declared, hd]
    · simp [Setting.declared, hd, htotal]
  · have hk := kept_length_le u first
    have := congrArg List.length hc
    simp only [List.length_append] at this
    omega

/-! ## The file worker -/

/-- The worker's write keeps the bytes together and completes the file when it
reaches its length. -/
theorem held_drain {P : Bytes → FileWriterHandle K → Prop} {len : Nat × Bool} {data : Bytes}
    {queue : List Bytes} (h : Held P bytes s) (hq : s.queue = data :: queue)
    (hp : ∀ content handle, P content handle → Filling len content handle)
    (hroom : len.2 = true → bytes.length ≤ len.1) (hfits : bytes.length < 2 ^ 64) (io : GoodIo) :
    Held (Filled len) bytes { s with
      queue
      writer := s.writer.map fun handle =>
        ((Call.writeOnDisk data io.val).perform handle).handle } := by
  obtain ⟨handle, content, hw, hfill, hc⟩ := h
  have hlen : content.length + data.length ≤ bytes.length := by
    rw [← hc, hq]
    simp
  refine ⟨_, content ++ data, by rw [hw]; rfl, ?_, by rw [← hc, hq]; simp [List.append_assoc]⟩
  exact settle_fills (writeOnDisk_fills data io.2 (by omega)
    fun hset => Nat.le_trans hlen (hroom hset)) (hp _ _ hfill)

/-! ## Attaching the storage -/

/-- The storage of an upload whose file could be created. -/
theorem buildTempStageFileStoragePath_eq (u : Setting M H L C) :
    buildTempStageFileStoragePath u.config u.request.headers u.uuid (.created ())
      (some (.storage u.body)) = if u.body = .file then some (u.storagePath, ()) else none := by
  cases hb : u.body <;> simp [buildTempStageFileStoragePath, DataManagement.isBodyStorage,
    Setting.storagePath]

theorem newEntryStorage_eq (u : Setting M H L C) :
    newEntryStorage u.config u.request.headers u.uuid (.created ()) (some (.storage u.body)) =
      some (if u.body = .file then some u.storagePath else none,
        if u.body = .file then some () else none) := by
  cases hb : u.body <;> simp [newEntryStorage, DataManagement.isBodyStorage, Setting.storagePath]

theorem attach_entry (h : Waiting u bytes s) :
    ∃ entry, (s.attachStorage u).table u.id = some entry ∧ Attached u entry.head ∧
      entry.dataManagementType = some (.storage u.body) ∧ entry.body = bytes ∧
      entry.bodyWrittenSize = bytes.length := by
  rcases h.entry with ⟨hnone, rfl⟩ | ⟨entry, hentry, hb⟩
  · simp only [State.attachStorage, Table.isEntryPartialReponseSet, hnone, Option.isSome_none,
      Bool.false_eq_true, if_false, newRequestAttributes_of_found u.found, u.stored,
      Table.addPartialRequestAbsent, newEntryStorage_eq, PMap.insert_self]
    refine ⟨_, rfl, ⟨?_, ?_, ?_⟩, rfl, rfl, rfl⟩
    · simp [PartialReq.new, PartialReq.head, Head.Full]
    · intro hfile
      simp [PartialReq.new, PartialReq.head, hfile]
    · rfl
  · simp only [State.attachStorage, Table.isEntryPartialReponseSet, hentry, Option.isSome_some,
      if_true, Table.completeRequestEntryInTable, PMap.modify_self, Option.map_some, completion,
      getAdditionnalAttributes_of_found u.found, u.stored, buildTempStageFileStoragePath_eq]
    refine ⟨_, rfl, ⟨?_, ?_, ?_⟩, rfl, hb.body, hb.written⟩
    · simp [PartialReq.complete, PartialReq.head, Head.Full]
    · intro hfile
      simp [PartialReq.complete, PartialReq.head, hfile]
    · cases hbody : u.body <;> simp [PartialReq.complete, PartialReq.head]

theorem inMemory_attach (h : Waiting u bytes s) (hmem : u.body = .inMemory) :
    InMemory u bytes (s.attachStorage u) := by
  obtain ⟨entry, hentry, hhead, hdata, hbody, hwritten⟩ := attach_entry h
  refine ⟨h.queue, fun _ => ⟨entry, hentry, ⟨hmem ▸ hdata, hbody, hwritten⟩, hhead⟩, ?_⟩
  intro event hev
  cases h.event.symm.trans hev

theorem inFile_attach (h : Waiting u bytes s) (hfile : u.body = .file) :
    InFile u bytes [] (s.attachStorage u) := by
  obtain ⟨entry, hentry, hhead, hdata, hbody, hwritten⟩ := attach_entry h
  have hheld : Held (Filling u.declared) [] (s.attachStorage u) := by
    refine ⟨_, [], ?_, filling_new u.request.contentLength, ?_⟩
    · simp only [State.attachStorage, hfile]
    · simp [State.attachStorage, h.queue]
  refine ⟨fun _ => ⟨entry, hentry, hfile ▸ hdata, hhead, hwritten, ?_⟩, ?_⟩
  · exact .inr ⟨hbody, rfl, h.queue, hheld⟩
  · intro event hev
    cases h.event.symm.trans hev

end Steps

/-! ## Runs -/

theorem received_append (as bs : List Action) : received (as ++ bs) = received as ++ received bs := by
  induction as with
  | nil => rfl
  | cons a as ih => cases a <;> simp [received, ih]

theorem early_append_of_mem {as : List Action} (h : Action.attach ∈ as) (bs : List Action) :
    early (as ++ bs) = early as := by
  induction as with
  | nil => cases h
  | cons a as ih => cases a <;> simp_all [early]

theorem early_attach_of_not_mem {as : List Action} (h : Action.attach ∉ as) :
    early (as ++ [.attach]) = received as := by
  induction as with
  | nil => rfl
  | cons a as ih => cases a <;> simp_all [early, received]

/-- The packets so far are within the upload, and all of it once it is finished. -/
structure Within (total : Nat) (past : List Action) (s : State L K) : Prop where
  length_le : (received past).length ≤ total
  whole : s.event.isSome → (received past).length = total

/-- Where the bytes are after the actions of `past`. -/
inductive Reached (u : Setting M H L C) (past : List Action) (s : State L K) : Prop
  | waiting (attached : s.attached = false) (unattached : Action.attach ∉ past)
      (waiting : Waiting u (received past) s)
  | inMemory (attached : s.attached = true) (mem : Action.attach ∈ past)
      (body : u.body = .inMemory) (inMemory : InMemory u (received past) s)
  | inFile (attached : s.attached = true) (mem : Action.attach ∈ past) (body : u.body = .file)
      (later : Bytes) (split : received past = early past ++ later)
      (inFile : InFile u (early past) later s)

section Run
variable {u : Setting M H L C} {s t : State L K} {past : List Action} {total : Nat}

theorem carryOut_frame (prefixing finishing : GoodIo) (effects : List (Effect L Unit))
    (s : State L K) :
    (effects.foldl (State.carryOut prefixing finishing) s).attached = s.attached ∧
      (effects.foldl (State.carryOut prefixing finishing) s).event = s.event := by
  induction effects generalizing s with
  | nil => exact ⟨rfl, rfl⟩
  | cons effect effects ih =>
    obtain ⟨hattached, hevent⟩ := ih (s.carryOut prefixing finishing effect)
    rw [List.foldl_cons, hattached, hevent]
    cases effect <;> exact ⟨rfl, rfl⟩

theorem data_attached (packet : Bytes) (io : GoodIo) :
    (s.data u packet io).attached = s.attached := by
  have henter : (s.enter u).attached = s.attached := by
    unfold State.enter
    split <;> rfl
  exact (carryOut_frame _ _ _ _).1.trans henter

theorem finish_attached (prefixing finishing : GoodIo) :
    (s.finish u prefixing finishing).attached = s.attached := by
  unfold State.finish
  split
  · exact (carryOut_frame _ _ _ _).1
  · rfl

theorem finish_event {entry : PartialReq L Unit} (hentry : s.table u.id = some entry)
    (hfull : entry.head.Full) (prefixing finishing : GoodIo) :
    (s.finish u prefixing finishing).event.isSome := by
  obtain ⟨flushed, hhead, -, hbuild⟩ := buildRouteEvent_flushed entry u.id u.scid
  simp only [State.finish, hentry]
  rw [(carryOut_frame _ _ _ _).2, hbuild, toRouteEvent_isSome, hhead]
  exact hfull

/-- The end of a request queues nothing for the file worker. -/
theorem finish_queue (prefixing finishing : GoodIo) :
    (s.finish u prefixing finishing).queue = s.queue := by
  have hflush : ∀ (entry : PartialReq L Unit) (s : State L K),
      (entry.flushAndPrefixWithTempBufferIfAnyBytes.2.foldl
        (State.carryOut prefixing finishing) s).queue = s.queue := by
    intro entry s
    unfold PartialReq.flushAndPrefixWithTempBufferIfAnyBytes
    split
    · rfl
    · dsimp only
      split
      · split <;> rfl
      · rfl
  have hevent : ∀ (entry : PartialReq L Unit) (s : State L K),
      ((entry.toRouteEvent u.id u.scid).2.2.foldl (State.carryOut prefixing finishing) s).queue =
        s.queue := by
    intro entry s
    unfold PartialReq.toRouteEvent
    split
    · cases entry.fileOpened <;> rfl
    · rfl
  unfold State.finish
  split
  · simp only [PartialReq.buildRouteEvent, List.foldl_append, hevent]
    split
    · exact hflush _ _
    · rfl
  · rfl

/-- A drained writer keeps everything else. -/
theorem inFile_drain {first later data : Bytes} {queue : List Bytes} (h : InFile u first later s)
    (hq : s.queue = data :: queue)
    (hdecl : u.request.contentLength = none ∨ u.request.contentLength = some total)
    (hle : first.length + later.length ≤ total) (hfits : total < 2 ^ 64) (io : GoodIo) :
    InFile u first later { s with
      queue
      writer := s.writer.map fun handle =>
        ((Call.writeOnDisk data io.val).perform handle).handle } := by
  have hlen : (u.kept first ++ later).length ≤ first.length + later.length := by
    have := kept_length_le u first
    simp only [List.length_append]
    omega
  refine ⟨fun he => ?_, fun event hev => ?_⟩
  · obtain ⟨entry, hentry, hdata, hhead, hwritten, hstored⟩ := h.entry he
    refine ⟨entry, hentry, hdata, hhead, hwritten, .inl ?_⟩
    rcases hstored with ⟨hbody, hheld⟩ | ⟨-, -, hempty, -⟩
    · obtain ⟨handle, content, hw, hfill, hc⟩ := held_drain hheld hq (fun _ _ => id)
        (declared_room hdecl (by omega)) (by omega) io
      exact ⟨hbody, handle, content, hw, hfill.toFilling, hc⟩
    · rw [hempty] at hq
      cases hq
  · obtain ⟨hwritten, hheld⟩ := h.done event hev
    exact ⟨hwritten, held_drain hheld hq (fun _ _ => Filled.toFilling) (fun _ => hlen) (by omega) io⟩

theorem drain_eq_some {io : GoodIo} (h : s.drain io = some t) :
    ∃ data queue, s.queue = data :: queue ∧ t = { s with
      queue
      writer := s.writer.map fun handle =>
        ((Call.writeOnDisk data io.val).perform handle).handle } := by
  unfold State.drain at h
  cases hq : s.queue with
  | nil => simp [hq] at h
  | cons data queue =>
    rw [hq] at h
    exact ⟨data, queue, rfl, (Option.some.inj h).symm⟩

theorem Within.before {a : Action} (h : Within total (past ++ [a]) t) (hstep : step u s a = some t) :
    Within total past s := by
  have hle := h.length_le
  rw [received_append, List.length_append] at hle
  refine ⟨by omega, fun hs => ?_⟩
  cases a with
  | attach =>
    obtain ⟨⟨-, he⟩, -⟩ := guarded_eq_some_iff.mp hstep
    simp [Option.isNone_iff_eq_none.mp he] at hs
  | data packet io =>
    obtain ⟨he, -⟩ := guarded_eq_some_iff.mp hstep
    simp [Option.isNone_iff_eq_none.mp he] at hs
  | finished prefixing finishing =>
    obtain ⟨⟨-, he⟩, -⟩ := guarded_eq_some_iff.mp hstep
    simp [Option.isNone_iff_eq_none.mp he] at hs
  | drain io =>
    obtain ⟨data, queue, -, rfl⟩ := drain_eq_some hstep
    have := h.whole hs
    simpa [received_append, received] using this

theorem reached_step {a : Action}
    (hdecl : u.request.contentLength = none ∨ u.request.contentLength = some total)
    (hfits : total < 2 ^ 64) (hw : Within total (past ++ [a]) t) (h : Reached u past s)
    (hstep : step u s a = some t) : Reached u (past ++ [a]) t := by
  have hlen := (hw.before hstep).length_le
  cases a with
  | attach =>
    obtain ⟨⟨hopen, -⟩, rfl⟩ := guarded_eq_some_iff.mp hstep
    have hrec : received (past ++ [.attach]) = received past := by simp [received_append, received]
    cases h with
    | waiting _ hmem hwait =>
      cases hb : u.body with
      | inMemory => exact .inMemory rfl (by simp) hb (hrec ▸ inMemory_attach hwait hb)
      | file =>
        have hearly := early_attach_of_not_mem hmem
        exact .inFile rfl (by simp) hb [] (by simp [hrec, hearly])
          (hearly ▸ inFile_attach hwait hb)
    | inMemory hatt | inFile hatt => simp [hatt] at hopen
  | data packet io =>
    obtain ⟨he, rfl⟩ := guarded_eq_some_iff.mp hstep
    rw [Option.isNone_iff_eq_none] at he
    have hrec : received (past ++ [.data packet io]) = received past ++ packet := by
      simp [received_append, received]
    cases h with
    | waiting hatt hmem hwait =>
      exact .waiting ((data_attached packet io).trans hatt) (by simpa using hmem)
        (hrec ▸ waiting_data hwait packet io)
    | inMemory hatt hmem hb hin =>
      exact .inMemory ((data_attached packet io).trans hatt) (by simp [hmem]) hb
        (hrec ▸ inMemory_data hin he packet io)
    | inFile hatt hmem hb later hsplit hin =>
      have hearly := early_append_of_mem hmem [.data packet io]
      have hle : (early past).length ≤ total := by
        rw [hsplit, List.length_append] at hlen
        omega
      exact .inFile ((data_attached packet io).trans hatt) (by simp [hmem]) hb (later ++ packet)
        (by rw [hrec, hsplit, hearly, List.append_assoc])
        (hearly ▸ inFile_data hin he hb hdecl hle packet io)
  | finished prefixing finishing =>
    obtain ⟨⟨hatt', he⟩, rfl⟩ := guarded_eq_some_iff.mp hstep
    rw [Option.isNone_iff_eq_none] at he
    have hrec : received (past ++ [.finished prefixing finishing]) = received past := by
      simp [received_append, received]
    cases h with
    | waiting hatt => simp [hatt] at hatt'
    | inMemory hatt hmem hb hin =>
      exact .inMemory ((finish_attached prefixing finishing).trans hatt) (by simp [hmem]) hb
        (hrec ▸ inMemory_finish hin he hb prefixing finishing)
    | inFile hatt hmem hb later hsplit hin =>
      obtain ⟨entry, hentry, -, hhead, -⟩ := hin.entry he
      have htotal := hw.whole (finish_event hentry hhead.full prefixing finishing)
      have hearly := early_append_of_mem hmem [.finished prefixing finishing]
      rw [hrec, hsplit, List.length_append] at htotal
      exact .inFile ((finish_attached prefixing finishing).trans hatt) (by simp [hmem]) hb later
        (by rw [hrec, hsplit, hearly])
        (hearly ▸ inFile_finish hin he hb hdecl htotal prefixing finishing)
  | drain io =>
    have hrec : received (past ++ [.drain io]) = received past := by simp [received_append, received]
    obtain ⟨data, queue, hq, rfl⟩ := drain_eq_some hstep
    cases h with
    | waiting _ _ hwait => simp [hwait.queue] at hq
    | inMemory _ _ _ hin => simp [hin.queue] at hq
    | inFile hatt hmem hb later hsplit hin =>
      have hearly := early_append_of_mem hmem [.drain io]
      rw [hsplit, List.length_append] at hlen
      exact .inFile hatt (by simp [hmem]) hb later (by rw [hrec, hsplit, hearly])
        (hearly ▸ inFile_drain hin hq hdecl hlen hfits io)

theorem reached_run {as : List Action}
    (hdecl : u.request.contentLength = none ∨ u.request.contentLength = some total)
    (hfits : total < 2 ^ 64) (run : exec (step u) {} as = some s) :
    Within total as s → Reached u as s := by
  refine exec_history (P := fun past s => Within total past s → Reached u past s) ?_ ?_ run
  · exact fun _ => .waiting rfl (by simp) ⟨rfl, rfl, .inl ⟨rfl, rfl⟩⟩
  · intro past t a v ih hstep hw
    exact reached_step hdecl hfits hw (ih (hw.before hstep)) hstep

/-- What a finished upload comes to: all of it, up to the early bytes of a file. -/
theorem conserved_iff_kept {as : List Action} (run : exec (step u) {} as = some s)
    (hdone : s.event.isSome) (hdrained : s.queue = [])
    (hdecl : u.request.contentLength = none ∨
      u.request.contentLength = some (received as).length)
    (hfits : (received as).length < 2 ^ 64) :
    Conserved u (received as) s ↔ (u.body = .file → u.kept (early as) = early as) := by
  obtain ⟨event, hev⟩ := Option.isSome_iff_exists.mp hdone
  cases reached_run hdecl hfits run ⟨Nat.le_refl _, fun _ => rfl⟩ with
  | waiting _ _ hwait => simp [hwait.event] at hdone
  | inMemory _ _ hb hin =>
    obtain ⟨hlen, hbody⟩ := hin.done event hev
    have hmem : u.body ≠ .file := by simp [hb]
    exact ⟨fun _ hfile => absurd hfile hmem,
      fun _ => ⟨⟨event, hev, hlen, fun _ => hbody⟩, fun hfile => absurd hfile hmem⟩⟩
  | inFile _ _ hb later hsplit hin =>
    obtain ⟨hlen, handle, content, hw, hfilled, hc⟩ := hin.done event hev
    rw [hdrained, List.flatten_nil, List.append_nil] at hc
    constructor
    · intro h _
      obtain ⟨handle', hw', hcomp⟩ := h.file hb
      obtain rfl : handle = handle' := Option.some.inj (hw.symm.trans hw')
      have hsame := hfilled.content_of_completed hcomp
      rw [hc, hsplit] at hsame
      exact (List.append_cancel_right hsame).symm
    · intro h
      rw [h hb] at hc
      refine ⟨⟨event, hev, by rw [hlen, hsplit, List.length_append], by simp [hb]⟩, fun _ => ?_⟩
      rw [← List.length_append, ← hc] at hfilled
      exact ⟨handle, hw, by rw [hsplit, ← hc]; exact hfilled.completed⟩

/-- A finished and drained upload is conserved exactly when its storage path is
text or no byte came before the storage was attached. A stream carries less than
`2 ^ 62` bytes. -/
theorem conserved_iff {as : List Action} (run : exec (step u) {} as = some s)
    (hdone : s.event.isSome) (hdrained : s.queue = [])
    (hdecl : u.request.contentLength = none ∨
      u.request.contentLength = some (received as).length)
    (hfits : (received as).length < 2 ^ 64) :
    Conserved u (received as) s ↔
      u.body = .inMemory ∨ u.storagePath.toStr.isSome ∨ early as = [] := by
  rw [conserved_iff_kept run hdone hdrained hdecl hfits, kept_eq_iff]
  cases u.body <;> simp

end Run

/-- An upload to a file under `root`, at the only route. -/
def fileUpload (root : Bytes) : Setting Unit Unit Unit Unit where
  config := ⟨⟨root⟩⟩
  manager :=
    { routesFormats :=
        { entries := [("/a", [⟨.POST, none, [], [], "/a", some (.storage .file)⟩])]
          keys_nodup := by simp
          path_eq := by simp
          methods_nodup := by simp }
      streamSessions := [] }
  id := ("c", 0)
  scid := [1]
  request := ⟨"/a", .POST, [], some 3, false⟩
  route := ⟨.POST, none, [], [], "/a", some (.storage .file)⟩
  body := .file
  uuid := "u"
  found := rfl
  stored := rfl

/-- A packet behind the attachment, written after the end. -/
def attachedUpload : List Action :=
  [.attach, .data [1, 2, 3] .plain, .finished .plain .plain, .drain .plain]

theorem conserved_iff_attachedUpload :
    ∃ s, exec (step (K := Unit) (fileUpload [47])) {} attachedUpload = some s ∧
      Conserved (fileUpload [47]) [1, 2, 3] s :=
  ⟨_, rfl, (conserved_iff (show exec (step (K := Unit) (fileUpload [47])) {} attachedUpload =
    some _ from rfl) (by rfl) (by rfl) (.inr rfl) (by decide)).mpr (.inr (.inr rfl))⟩

/-- A packet before the attachment. -/
def earlyUpload : List Action := [.data [1, 2, 3] .plain, .attach, .finished .plain .plain]

theorem toStr_storagePath_none : (fileUpload [255]).storagePath.toStr = none := by
  have hinvalid : ¬ ByteArray.IsValidUTF8 ⟨(fileUpload [255]).storagePath.bytes.toArray⟩ := by
    intro h
    have hfirst := h.isUTF8FirstByte_getElem_zero (by decide)
    revert hfirst
    decide
  simp [OsPath.toStr, fromUtf8, String.fromUTF8?, hinvalid]

/-- Under a storage path that is not text the bytes received before the
attachment are lost. -/
theorem early_bytes_lost :
    ∃ s, exec (step (K := Unit) (fileUpload [255])) {} earlyUpload = some s ∧
      s.event.isSome ∧ s.queue = [] ∧ ¬ Conserved (fileUpload [255]) [1, 2, 3] s := by
  refine ⟨_, rfl, ?_, ?_, fun h => ?_⟩
  · exact finish_event (show _ = some _ from rfl) ⟨rfl, rfl, rfl⟩ _ _
  · exact finish_queue _ _
  · have hkept := (conserved_iff_kept
      (show exec (step (K := Unit) (fileUpload [255])) {} earlyUpload = some _ from rfl)
      (finish_event (show _ = some _ from rfl) ⟨rfl, rfl, rfl⟩ _ _) (finish_queue _ _) (.inr rfl)
      (by decide)).mp h rfl
    simp [Setting.kept, toStr_storagePath_none, earlyUpload, early] at hkept

end FacesHttp3.Upload