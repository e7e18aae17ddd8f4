import FacesHttp3.Dispatch.Laws
import FacesHttp3.FileWriter.Sections
import FacesHttp3.Server.Collection
import FacesHttp3.Server.Trailers

/-! # The files of uploads

A worker that stores the body of a request in a file creates a writer, which is
registered as pending at once and leaves the registry by its own completion or
failure only. The entry of the request holds the writer until its event takes it
to the handler; queued packets hold clones. -/

namespace FacesHttp3.Server
open FacesHttp3.Lib FacesHttp3.Lib.Exec FacesHttp3.Request FacesHttp3.Router
open FacesHttp3.RequestsTable FacesHttp3.FileWriter

/-- A writer with the request it was created for. -/
structure StoredFile (K : Type) where
  owner : ReqId
  handle : FileWriterHandle K

/-- The server with the writers in the order of their creation, the packets queued
for the file workers, and the writers that were handed to handlers. -/
structure Storage (M H L C ω K : Type) where
  server : State M H L C Nat ω
  files : List (StoredFile K) := []
  writes : List (Nat × Bytes) := []
  delivered : List Nat := []

/-- A step of the server, with the answers to the file operations there may be in
it; a file worker with the `i`-th queued packet; or a handler with its writer. -/
inductive StorageAction (L ω K : Type)
  | server (action : Action L Nat ω) (prefixing finishing : Io)
  | write (i : Nat) (io : Io)
  | call (writer : Nat) (call : FileWriter.Call K)

variable {M H L C W ω K : Type}

/-! ## Writers and accesses to the request table -/

/-- The writer in the entry of a request. -/
def State.writerOf (s : State M H L C W ω) (id : ReqId) : Option W :=
  (s.shared.table id).bind PartialReq.fileOpened

/-- The writer of the file that was opened for a step. -/
def Action.file : Action L W ω → Option W
  | .complete _ _ file => file
  | .create _ _ file => file
  | _ => none

/-- The step completes an entry, rather than creates one. -/
def Action.Completes : Action L W ω → Bool
  | .complete _ _ _ => true
  | _ => false

def createdFile (pool : FileWriterPool) (id : ReqId) (dataManagementType : Option DataManagement)
    (file : Option W) (contentLength : Option Nat) : Option (StoredFile K) :=
  match (pool.createStorage id dataManagementType file).2 with
  | .created _ => some ⟨id, .new contentLength⟩
  | .createFailed => none
  | .handleFailed => none

/-- The writer a step creates and registers. -/
def creates (manager : RouteManager M H L C) (s : State M H L C W ω) :
    Action L W ω → Option (StoredFile K)
  | .complete number _ file =>
    match s.jobs number with
    | some (.checked job true _) =>
      createdFile s.pool job.message.id (job.attributes manager).1 file job.contentLength
    | _ => none
  | .create number _ file =>
    match s.jobs number with
    | some (.creating job _) =>
      createdFile s.pool job.message.id (newRequestAttributes manager job.path job.method).1 file
        job.contentLength
    | _ => none
  | _ => none

/-- The entry a response worker makes its event of. -/
def routedEntry (s : State M H L C W ω) (w : ω) : Option (ReqId × PartialReq L W) :=
  match s.shared.workers w with
  | .taken id _ _ => (s.shared.table id).map fun entry => (id, entry)
  | _ => none

/-- What a step does to the writers and their queues. -/
def accessEffects (s : State M H L C W ω) : Action L W ω → List (Effect L W)
  | .dataWrite packet =>
    match s.network with
    | .entered id => (Table.writeBodyPacket s.shared.table id packet false).2.2
    | _ => []
  | .buildRouteEvent w scid =>
    match routedEntry s w with
    | some (id, entry) => (entry.buildRouteEvent id scid).2.2
    | none => []
  | _ => []

/-- The writer a step hands out with an event. -/
def handsOut (s : State M H L C W ω) : Action L W ω → Option W
  | .buildRouteEvent w scid =>
    (routedEntry s w).bind fun (id, entry) =>
      (entry.buildRouteEvent id scid).2.1.bind FinishedEvent.writer
  | _ => none

/-! ## The machine -/

def Storage.call (s : Storage M H L C ω K) (w : Nat) (call : FileWriter.Call K) :
    Storage M H L C ω K :=
  { s with files := s.files.modify w fun file =>
      { file with handle := (call.perform file.handle).handle } }

def Storage.carryOut (prefixing finishing : Io) (s : Storage M H L C ω K) :
    Effect L Nat → Storage M H L C ω K
  | .onData _ _ _ => s
  | .associateStreamWithNextListener => s
  | .transfertBytesFromTempFile w _ bytes =>
    s.call w (.transfertBytesFromTempFile bytes prefixing)
  | .sendWritableItem w data => { s with writes := s.writes ++ [(w, data)] }
  | .finishReceived w received => s.call w (.finishReceived received finishing)

/-- Body packets come after the headers and before the end of their request, and a
new writer has a name of its own. -/
def Storage.Allowed (s : Storage M H L C ω K) (a : Action L Nat ω) : Prop :=
  (∀ w ∈ a.file, w = s.files.length) ∧
    match a with
    | .dataCheck id => s.server.shared.begun id = true ∧ s.server.shared.ended id = false
    | _ => True

instance (s : Storage M H L C ω K) (a : Action L Nat ω) : Decidable (s.Allowed a) := by
  unfold Storage.Allowed
  cases a <;> infer_instance

/-- The tables and queues behind a step of the server, before its file operations. -/
def Storage.accessed (manager : RouteManager M H L C) (s : Storage M H L C ω K)
    (a : Action L Nat ω) (server : State M H L C Nat ω) : Storage M H L C ω K :=
  { s with
    server
    files := s.files ++ (creates manager s.server a).toList
    delivered := s.delivered ++ (handsOut s.server a).toList }

variable [DecidableEq ω]

def storageStep (config : ServerConfig) (form404 : Option ErrorForm) (manager : RouteManager M H L C)
    (s : Storage M H L C ω K) : StorageAction L ω K → Option (Storage M H L C ω K)
  | .server a prefixing finishing =>
    if s.Allowed a then
      (step config form404 manager s.server a).map fun server =>
        (accessEffects s.server a).foldl (Storage.carryOut prefixing finishing)
          (s.accessed manager a server)
    else none
  | .write i io =>
    s.writes[i]?.map fun (w, data) =>
      { s with writes := s.writes.eraseIdx i }.call w (.writeOnDisk data io)
  | .call w call => guarded (w ∈ s.delivered) (s.call w call)

omit [DecidableEq ω] in
def storageInit (manager : RouteManager M H L C) : Storage M H L C ω K where
  server := init manager

/-! ## The property -/

omit [DecidableEq ω] in
/-- The request is over: it has no disposition, no cancellation of it is on its way,
no job, verdict, registration or queued packet of it is left to be processed, and
a file its handler was given is completed or failed. -/
structure RequestOver (s : Storage M H L C ω K) (id : ReqId) : Prop where
  signal : s.server.shared.signal id = none
  net : ¬ s.server.shared.net.Cancels id
  work : Dispatch.NoWork s.server.shared id
  jobs : ∀ number pc, s.server.jobs number = some pc → pc.message.id ≠ id
  injections : id ∉ s.server.shared.injections
  writes : ∀ item ∈ s.writes, ∀ file, s.files[item.1]? = some file → file.owner ≠ id
  delivered : ∀ w ∈ s.delivered, ∀ file, s.files[w]? = some file → file.owner = id →
    file.handle.Finished

omit [DecidableEq ω] in
/-- No writer created for the request is registered as pending. -/
def NoPendingWriter (s : Storage M H L C ω K) (id : ReqId) : Prop :=
  ∀ file ∈ s.files, file.owner = id → file.handle.pending = false

/-- The step takes the entry of `id` from its writer: the entry is removed, or a
worker completes it with another storage. -/
def Drops (id : ReqId) (s : State M H L C W ω) : Action L W ω → Prop
  | .protocol action => ErasesEntry id s.shared action
  | .complete number _ _ =>
    match s.jobs number with
    | some (.checked job true _) => job.message.id = id
    | _ => False
  | _ => False

/-- No unfinished writer is dropped: not with its entry, and not by the worker that
created it and finds its request gone, or there already. -/
def RespectsWriters (manager : RouteManager M H L C) (s : Storage M H L C ω K) :
    StorageAction L ω K → Prop
  | .server a _ _ =>
    (∀ w < s.files.length, ∀ file ∈ s.files[w]?, s.server.writerOf file.owner = some w →
      Drops file.owner s.server a → file.handle.Finished) ∧
    ∀ file ∈ (creates manager s.server a : Option (StoredFile K)),
      (s.server.shared.table file.owner).isSome = a.Completes
  | _ => True

omit [DecidableEq ω] in
instance (id : ReqId) (pc : Dispatch.NetPc) : Decidable (pc.Cancels id) := by
  unfold Dispatch.NetPc.Cancels
  split <;> infer_instance

instance {ρ : Type} (id : ReqId) (s : Dispatch.State ρ ω) (a : Dispatch.Action ρ ω) :
    Decidable (ErasesEntry id s a) := by
  unfold ErasesEntry
  split <;> infer_instance

instance (id : ReqId) (s : State M H L C W ω) (a : Action L W ω) : Decidable (Drops id s a) := by
  induction a using Action.casesOn <;> dsimp only [Drops] <;> try infer_instance
  case complete number _ _ =>
    rcases s.jobs number with _ | _ | _ | _ | ⟨job, _ | _, _⟩ <;> infer_instance

instance (manager : RouteManager M H L C) (s : Storage M H L C ω K) (a : StorageAction L ω K) :
    Decidable (RespectsWriters manager s a) := by
  unfold RespectsWriters
  split <;> infer_instance

/-! ## The writer of an entry -/

omit [DecidableEq ω] in
/-- An event takes the writer, or it stays in the entry. -/
theorem buildRouteEvent_fileOpened (entry : PartialReq L W) (id : ReqId) (scid : Bytes) :
    (entry.buildRouteEvent id scid).1.fileOpened = entry.fileOpened ∨
      (entry.buildRouteEvent id scid).2.1.bind FinishedEvent.writer = entry.fileOpened := by
  obtain ⟨flushed, hhead, hentry, hevent⟩ := buildRouteEvent_flushed entry id scid
  have hsame : flushed.fileOpened = entry.fileOpened := congrArg Head.fileOpened hhead
  rw [hentry, hevent]
  unfold PartialReq.toRouteEvent
  split
  · exact .inr hsame
  · exact .inl hsame

omit [DecidableEq ω] in
/-- An entry that came in between keeps its writer. -/
theorem addPartialRequestAbsent_found {table : Table L W} {id : ReqId} {entry : PartialReq L W}
    (hentry : table id = some entry) (config : ServerConfig) (method : H3Method)
    (dataManagementType : Option DataManagement) (eventSubscriber : Option L) (headers : List Header)
    (path : String) (contentLength : Option Nat) (isEnd : Bool) (uuid : String)
    (creation : FileCreation W) :
    ∃ after, table.addPartialRequestAbsent config id method dataManagementType eventSubscriber headers
      path contentLength isEnd uuid creation id = some after ∧ after.fileOpened = entry.fileOpened := by
  unfold Table.addPartialRequestAbsent
  cases newEntryStorage config headers uuid creation dataManagementType with
  | none => exact ⟨entry, hentry, rfl⟩
  | some storage =>
    simp only [hentry]
    exact ⟨_, PMap.insert_self _ _ _, rfl⟩

omit [DecidableEq ω] in
theorem createdFile_spec {pool : FileWriterPool} {id : ReqId}
    {dataManagementType : Option DataManagement} {file : Option W} {contentLength : Option Nat}
    {stored : StoredFile K} (h : createdFile pool id dataManagementType file contentLength = some stored) :
    ∃ w, file = some w ∧ (pool.createStorage id dataManagementType file).2 = .created w ∧
      dataManagementType.bind DataManagement.isBodyStorage = some .file ∧
      stored = ⟨id, .new contentLength⟩ := by
  unfold createdFile at h
  cases hcreation : (pool.createStorage id dataManagementType file).2 with
  | createFailed => simp [hcreation] at h
  | handleFailed => simp [hcreation] at h
  | created w =>
    rw [hcreation] at h
    cases h
    unfold FileWriterPool.createStorage at hcreation
    split at hcreation
    · rename_i hstorage
      cases file with
      | none => cases hcreation
      | some writer =>
        dsimp only at hcreation
        split at hcreation
        · rename_i writer' hwriter
          obtain ⟨_, -, rfl⟩ := Option.map_eq_some_iff.mp hwriter
          cases hcreation
          exact ⟨_, rfl, rfl, hstorage, rfl⟩
        · cases hcreation
    · cases hcreation

section Server
variable {config : ServerConfig} {form404 : Option ErrorForm} {manager : RouteManager M H L C}
  {s t : State M H L C W ω} {a : Action L W ω} {id : ReqId} {w : W}

/-- A writer stays in its entry until the step drops it or hands it out. -/
theorem writerOf_step (h : GateInv manager s) (hstep : step config form404 manager s a = some t)
    (hw : s.writerOf id = some w) :
    t.writerOf id = some w ∨ Drops id s a ∨ handsOut s a = some w := by
  obtain ⟨entry, hentry, hfile⟩ := Option.bind_eq_some_iff.mp hw
  have hkeeps : ∀ after : PartialReq L W, t.shared.table id = some after →
      after.fileOpened = entry.fileOpened → t.writerOf id = some w := by
    intro after hafter hsame
    rw [State.writerOf, hafter, Option.bind_some, hsame, hfile]
  cases step_entry h hstep id with
  | same _ table => exact .inl (hkeeps entry (table.trans hentry) rfl)
  | set _ table =>
    refine .inl (hkeeps entry ?_ rfl)
    rw [table, Table.setRequestInTable, PMap.orInsert_self, hentry]
    rfl
  | @packet packet network table =>
    refine .inl (hkeeps (entry.writeBodyPacket packet false).1 ?_ ?_)
    · rw [table, Table.writeBodyPacket, hentry]
      exact PMap.insert_self _ _ _
    · exact congrArg Head.fileOpened (writeBodyPacket_head entry packet false)
  | completed job_eq id_eq table =>
    right; left
    simpa [Drops, job_eq] using id_eq
  | found _ _ table =>
    rw [hentry] at table
    exact .inl (hkeeps _ table rfl)
  | created _ _ table =>
    obtain ⟨after, hafter, hsame⟩ := addPartialRequestAbsent_found hentry _ _ _ _ _ _ _ _ _ _
    exact .inl (hkeeps after (table.trans hafter) hsame)
  | @taken worker scid born taken hworker table =>
    rw [hentry, Option.map_some] at table
    rcases buildRouteEvent_fileOpened entry id scid with hsame | hout
    · exact .inl (hkeeps _ table hsame)
    · right; right
      simp only [handsOut, routedEntry, hworker, hentry, Option.map_some, Option.bind_some]
      exact hout.trans hfile
  | erased erases => exact .inr (.inl erases)

/-- A created writer is in the entry when the worker finds what it looked for. -/
theorem writerOf_created {file : StoredFile K} (h : GateInv manager s)
    (hstep : step config form404 manager s a = some t)
    (hcreates : creates manager s a = some file)
    (hplaced : (s.shared.table file.owner).isSome = a.Completes) :
    ∃ w, a.file = some w ∧ t.writerOf file.owner = some w ∧ Registered file.handle := by
  cases a with
  | complete number uuid opened =>
    cases hjob : s.jobs number with
    | none => simp [creates, hjob] at hcreates
    | some pc =>
      cases pc with
      | checked job isSet headers =>
        cases isSet with
        | false => simp [creates, hjob] at hcreates
        | true =>
          simp only [creates, hjob] at hcreates
          obtain ⟨w, hopened, hcreation, hstorage, rfl⟩ := createdFile_spec hcreates
          refine ⟨w, hopened, ?_, registered_new _⟩
          obtain ⟨entry, hentry⟩ := Option.isSome_iff_exists.mp hplaced
          cases step_entry h hstep job.message.id with
          | same untouched => exact absurd ⟨_, hjob, rfl⟩ untouched
          | completed job_eq id_eq table =>
            cases hjob.symm.trans job_eq
            rw [State.writerOf, table, hentry, Option.map_some, Option.bind_some]
            simp [PartialReq.complete, completion, buildTempStageFileStoragePath, hstorage, hcreation]
      | _ => simp [creates, hjob] at hcreates
  | create number uuid opened =>
    cases hjob : s.jobs number with
    | none => simp [creates, hjob] at hcreates
    | some pc =>
      cases pc with
      | creating job headers =>
        simp only [creates, hjob] at hcreates
        obtain ⟨w, hopened, hcreation, hstorage, rfl⟩ := createdFile_spec hcreates
        refine ⟨w, hopened, ?_, registered_new _⟩
        have habsent : s.shared.table job.message.id = none := by simpa [Action.Completes] using hplaced
        cases step_entry h hstep job.message.id with
        | same untouched => exact absurd ⟨_, hjob, rfl⟩ untouched
        | created job_eq id_eq table =>
          cases hjob.symm.trans job_eq
          rw [State.writerOf, table, Table.addPartialRequestAbsent]
          simp [newEntryStorage, hstorage, hcreation, habsent, PartialReq.new]
      | _ => simp [creates, hjob] at hcreates
  | _ => simp [creates] at hcreates

end Server

/-! ## File operations -/

section Files
variable {s t u : Storage M H L C ω K}

omit [DecidableEq ω] in
/-- File operations only: the tables stay, and every writer is an earlier one that
went on. -/
structure Advances (s t : Storage M H L C ω K) : Prop where
  server : t.server = s.server
  delivered : t.delivered = s.delivered
  files : ∀ (w : Nat) (file : StoredFile K), t.files[w]? = some file →
    ∃ old : StoredFile K, s.files[w]? = some old ∧ file.owner = old.owner ∧
      (Registered old.handle → Yields old.handle file.handle)

omit [DecidableEq ω] in
theorem Advances.refl (s : Storage M H L C ω K) : Advances s s :=
  ⟨rfl, rfl, fun _ file hfile => ⟨file, hfile, rfl, fun h => ⟨h, id⟩⟩⟩

omit [DecidableEq ω] in
theorem Advances.trans (hst : Advances s t) (htu : Advances t u) : Advances s u := by
  refine ⟨htu.server.trans hst.server, htu.delivered.trans hst.delivered, fun w file hfile => ?_⟩
  obtain ⟨middle, hmiddle, howner, hlater⟩ := htu.files w file hfile
  obtain ⟨old, hold, howner', hearlier⟩ := hst.files w middle hmiddle
  refine ⟨old, hold, howner.trans howner', fun hregistered => ?_⟩
  have hyields := hearlier hregistered
  have hyields' := hlater hyields.registered
  exact ⟨hyields'.registered, fun hpending => hyields.kept (hyields'.kept hpending)⟩

omit [DecidableEq ω] in
theorem call_advances (s : Storage M H L C ω K) (w : Nat) (call : FileWriter.Call K) :
    Advances s (s.call w call) := by
  refine ⟨rfl, rfl, fun v file hfile => ?_⟩
  rw [Storage.call, List.getElem?_modify] at hfile
  obtain ⟨old, hold, rfl⟩ := Option.map_eq_some_iff.mp hfile
  refine ⟨old, hold, ?_, fun h => ?_⟩
  · split <;> rfl
  · split
    · exact call.perform_yields h
    · exact ⟨h, id⟩

omit [DecidableEq ω] in
theorem carryOut_advances (prefixing finishing : Io) (s : Storage M H L C ω K) (effect : Effect L Nat) :
    Advances s (s.carryOut prefixing finishing effect) := by
  cases effect with
  | onData => exact .refl s
  | associateStreamWithNextListener => exact .refl s
  | transfertBytesFromTempFile w path bytes => exact call_advances s w _
  | sendWritableItem w data => exact ⟨rfl, rfl, (Advances.refl s).files⟩
  | finishReceived w received => exact call_advances s w _

omit [DecidableEq ω] in
theorem foldl_carryOut_advances (prefixing finishing : Io) (effects : List (Effect L Nat))
    (s : Storage M H L C ω K) :
    Advances s (effects.foldl (Storage.carryOut prefixing finishing) s) := by
  induction effects generalizing s with
  | nil => exact .refl s
  | cons effect effects ih => exact (carryOut_advances prefixing finishing s effect).trans (ih _)

/-! ## The invariant -/

/-- A pending writer is in the entry of its request or with a handler. -/
structure StorageInv (manager : RouteManager M H L C) (s : Storage M H L C ω K) : Prop where
  gate : GateInv manager s.server
  protocol : ∃ actions, exec Dispatch.step {} actions = some s.server.shared
  packet : PacketInv s.server
  registered : ∀ (w : Nat) (file : StoredFile K), s.files[w]? = some file → Registered file.handle
  held : ∀ (w : Nat) (file : StoredFile K), s.files[w]? = some file → file.handle.pending = true →
    s.server.writerOf file.owner = some w ∨ w ∈ s.delivered

variable {config : ServerConfig} {form404 : Option ErrorForm} {manager : RouteManager M H L C}
  {a : StorageAction L ω K}

theorem storageInv_init : StorageInv manager (storageInit manager : Storage M H L C ω K) where
  gate := gateInv_init
  protocol := ⟨[], rfl⟩
  packet := packetInv_init
  registered w file hfile := by simp [storageInit] at hfile
  held w file hfile := by simp [storageInit] at hfile

theorem StorageInv.advances (h : StorageInv manager s) (hst : Advances s t) :
    StorageInv manager t := by
  refine ⟨hst.server ▸ h.gate, hst.server ▸ h.protocol, hst.server ▸ h.packet, ?_, ?_⟩
  · intro w file hfile
    obtain ⟨old, hold, -, hyields⟩ := hst.files w file hfile
    exact (hyields (h.registered w old hold)).registered
  · intro w file hfile hpending
    obtain ⟨old, hold, howner, hyields⟩ := hst.files w file hfile
    have hbefore := (hyields (h.registered w old hold)).kept hpending
    rw [hst.server, hst.delivered, howner]
    exact h.held w old hold hbefore

/-- The accesses of a step of the server. -/
theorem StorageInv.accessed {action : Action L Nat ω} {server : State M H L C Nat ω}
    {prefixing finishing : Io} (h : StorageInv manager s) (hallowed : s.Allowed action)
    (hrespects : RespectsWriters manager s (.server action prefixing finishing))
    (hstep : step config form404 manager s.server action = some server) :
    StorageInv manager (s.accessed manager action server) := by
  obtain ⟨hname, hpacket⟩ := hallowed
  obtain ⟨hkeeps, hplaced⟩ := hrespects
  -- a writer is an old one or the one the step creates
  have hnew : ∀ w file, (s.accessed manager action server).files[w]? = some file →
      s.files[w]? = some file ∨ (w = s.files.length ∧ creates manager s.server action = some file) := by
    intro w file hfile
    simp only [Storage.accessed] at hfile
    by_cases hw : w < s.files.length
    · rw [List.getElem?_append_left hw] at hfile
      exact .inl hfile
    · rw [List.getElem?_append_right (by omega)] at hfile
      right
      cases hcreates : (creates manager s.server action : Option (StoredFile K)) with
      | none => simp [hcreates] at hfile
      | some created =>
        rw [hcreates, Option.toList_some, List.getElem?_singleton] at hfile
        split at hfile
        · cases hfile
          exact ⟨by omega, rfl⟩
        · cases hfile
  refine ⟨gateInv_step h.gate hstep, ?_, ?_, ?_, ?_⟩
  · obtain ⟨actions, hactions⟩ := h.protocol
    exact protocol_step h.packet hactions hstep
  · refine packetInv_step h.packet (fun id heq => ?_) hstep
    subst heq
    exact hpacket
  · intro w file hfile
    rcases hnew w file hfile with hold | ⟨-, hcreates⟩
    · exact h.registered w file hold
    · obtain ⟨_, -, -, hregistered⟩ := writerOf_created h.gate hstep hcreates (hplaced file hcreates)
      exact hregistered
  · intro w file hfile hpending
    rcases hnew w file hfile with hold | ⟨rfl, hcreates⟩
    · have hlength : w < s.files.length := (List.getElem?_eq_some_iff.mp hold).1
      rcases h.held w file hold hpending with hheld | hdelivered
      · rcases writerOf_step h.gate hstep hheld with hkept | hdrops | hout
        · exact .inl hkept
        · have hfinished := hkeeps w hlength file hold hheld hdrops
          simp [(h.registered w file hold).yielded hfinished] at hpending
        · exact .inr (List.mem_append_right _ (by simp [hout]))
      · exact .inr (List.mem_append_left _ hdelivered)
    · obtain ⟨w, hopened, hwriter, -⟩ :=
        writerOf_created h.gate hstep hcreates (hplaced file hcreates)
      rw [hname w hopened] at hwriter
      exact .inl hwriter

theorem storageInv_step (h : StorageInv manager s) (hrespects : RespectsWriters manager s a)
    (hstep : storageStep config form404 manager s a = some t) : StorageInv manager t := by
  cases a with
  | server action prefixing finishing =>
    simp only [storageStep] at hstep
    split at hstep
    · rename_i hallowed
      obtain ⟨server, hserver, rfl⟩ := Option.map_eq_some_iff.mp hstep
      exact (h.accessed hallowed hrespects hserver).advances (foldl_carryOut_advances _ _ _ _)
    · cases hstep
  | write i io =>
    obtain ⟨⟨w, data⟩, -, rfl⟩ := Option.map_eq_some_iff.mp hstep
    have hdequeued : StorageInv manager { s with writes := s.writes.eraseIdx i } :=
      ⟨h.gate, h.protocol, h.packet, h.registered, h.held⟩
    exact hdequeued.advances (call_advances _ _ _)
  | call w call =>
    obtain ⟨-, rfl⟩ := guarded_eq_some_iff.mp hstep
    exact h.advances (call_advances _ _ _)

/-- In every run that drops no unfinished writer, no writer of a request that is over
is left in the registry of pending files. -/
theorem no_writer_outlives {as : List (StorageAction L ω K)}
    (hrespects : Every (storageStep config form404 manager) (RespectsWriters manager)
      (storageInit manager) as)
    (run : exec (storageStep config form404 manager) (storageInit manager) as = some s) (id : ReqId)
    (hover : RequestOver s id) : NoPendingWriter s id := by
  have h : StorageInv manager s := exec_invariant_of_every storageInv_init
    (fun _ _ _ h hr hstep => storageInv_step h hr hstep) hrespects run
  obtain ⟨actions, hactions⟩ := h.protocol
  have htable : s.server.shared.table id = none :=
    (Dispatch.protocol_laws hactions).leftover id hover.signal hover.work hover.net
  intro file hmem howner
  obtain ⟨w, hfile⟩ := List.mem_iff_getElem?.mp hmem
  by_contra hpending
  rw [Bool.not_eq_false] at hpending
  rcases h.held w file hfile hpending with hheld | hdelivered
  · simp [State.writerOf, howner, htable] at hheld
  · have hfinished := hover.delivered w hdelivered file hfile howner
    simp [(h.registered w file hfile).yielded hfinished] at hpending

/-- The server of a run is one the header sections reach. -/
theorem gateInv_of_storage {as : List (StorageAction L ω K)}
    (run : exec (storageStep config form404 manager) (storageInit manager) as = some s) :
    GateInv manager s.server := by
  refine exec_invariant (P := fun s => GateInv manager s.server) gateInv_init ?_ run
  intro s a t h hstep
  cases a with
  | server action prefixing finishing =>
    simp only [storageStep] at hstep
    split at hstep
    · obtain ⟨server, hserver, rfl⟩ := Option.map_eq_some_iff.mp hstep
      rw [(foldl_carryOut_advances _ _ _ _).server]
      exact gateInv_step h hserver
    · cases hstep
  | write i io =>
    obtain ⟨⟨w, data⟩, -, rfl⟩ := Option.map_eq_some_iff.mp hstep
    exact h
  | call w call =>
    obtain ⟨-, rfl⟩ := guarded_eq_some_iff.mp hstep
    exact h

omit [DecidableEq ω] in
theorem requestOver_of_settled {id : ReqId} (h : Settled s.server id.1)
    (hsignal : s.server.shared.signal id = none) (hnet : s.server.shared.net = .idle)
    (hwrites : s.writes = []) (hdelivered : ∀ w ∈ s.delivered, ∀ file ∈ s.files[w]?, file.handle.Finished) :
    RequestOver s id where
  signal := hsignal
  net hcancels := by simp [hnet, Dispatch.NetPc.Cancels] at hcancels
  work := h.work id rfl
  jobs number pc hpc heq := h.jobs number pc hpc (congrArg Prod.fst heq)
  injections hmem := h.injections id hmem rfl
  writes item hitem := by simp [hwrites] at hitem
  delivered w hw file hfile _ := hdelivered w hw file hfile

end Files

/-! ## An upload to a file -/

/-- One POST route at `/a` that stores its bodies in files. -/
def storageRoute : RouteManager Unit Unit Unit Unit where
  routesFormats :=
    { entries := [("/a", [⟨.POST, none, [()], [()], "/a", some (.storage .file)⟩])]
      keys_nodup := by simp
      path_eq := by simp
      methods_nodup := by simp }
  streamSessions := []

/-- The worker of the header section creates the file of the upload. -/
def fileCreated : List (Action Unit Nat Unit) :=
  [.headers uploadSection, .processHeader, .processNext 0, .takeJob 0,
    .callMiddleware 0 (.ok (.continued uploadSection.headers)), .check 0, .lookup 0,
    .create 0 "u" (some 0)]

def onFiles (actions : List (Action Unit Nat Unit)) : List (StorageAction Unit Unit Unit) :=
  actions.map fun a => .server a {} {}

/-- The handler is called with the file, whose only packet is written behind it. -/
def storedUpload : List (StorageAction Unit Unit Unit) :=
  onFiles (fileCreated ++ [.sendReceptionStatus 0, .sendSignal 0, .protocol .receive,
    .dataCheck ("c", 0), .dataWrite [1, 2, 3], .finished ("c", 0) [1], .protocol (.pick ()),
    .protocol (.removeIf ()), .buildRouteEvent () [1], .protocol (.cleanEntry ()), .insertQueue (),
    .callHandler (), .insertQueue (), .endPreparation ()]) ++ [.write 0 {}]

/-- The stream is reset while its file is created. -/
def resetUpload : List (StorageAction Unit Unit Unit) :=
  onFiles (fileCreated ++ [.reset ("c", 0) [1], .protocol .discard, .sendReceptionStatus 0,
    .sendSignal 0, .protocol .receive, .protocol .receiverDiscard])

/-- Nothing of the request is left to be done. -/
def Storage.idle (s : Storage Unit Unit Unit Unit Unit Unit) (id : ReqId) : Bool :=
  decide (∀ number < s.server.sections,
      (s.server.jobs number).isNone ∧ (s.server.shared.jobs number).isNone) &&
    s.server.shared.verdicts.isEmpty && s.server.shared.receiver.isNone &&
    decide (s.server.shared.workers () = .idle) && s.server.shared.injections.isEmpty &&
    (s.server.shared.signal id).isNone && decide (s.server.shared.net = .idle) &&
    s.writes.isEmpty && decide (∀ w ∈ s.delivered, ∀ file ∈ s.files[w]?, file.handle.Finished)

theorem requestOver_of_idle {s : Storage Unit Unit Unit Unit Unit Unit} {id : ReqId}
    (h : GateInv storageRoute s.server) (hidle : s.idle id = true) : RequestOver s id := by
  simp only [Storage.idle, Bool.and_eq_true, decide_eq_true_eq, Option.isNone_iff_eq_none,
    List.isEmpty_iff] at hidle
  obtain ⟨⟨⟨⟨hserver, hsignal⟩, hnet⟩, hwrites⟩, hdelivered⟩ := hidle
  obtain ⟨⟨⟨⟨hjobs, hverdicts⟩, hreceiver⟩, hworkers⟩, hinjections⟩ := hserver
  have hsettled : Settled s.server id.1 :=
    settled_of_idle h hjobs hverdicts hreceiver (fun _ => hworkers) hinjections id.1
  exact requestOver_of_settled hsettled hsignal hnet hwrites hdelivered

/-- The file of the upload is complete, and its writer gone. -/
theorem no_writer_outlives_stored :
    ∃ s, exec (storageStep ⟨⟨[]⟩⟩ none storageRoute) (storageInit storageRoute) storedUpload = some s ∧
      s.files.length = 1 ∧ RequestOver s ("c", 0) ∧ NoPendingWriter s ("c", 0) := by
  have hrespects : Every (storageStep ⟨⟨[]⟩⟩ none storageRoute) (RespectsWriters storageRoute)
      (storageInit storageRoute) storedUpload := by decide +kernel
  have hrun : ((exec (storageStep ⟨⟨[]⟩⟩ none storageRoute) (storageInit storageRoute)
      storedUpload).any fun s => decide (s.files.length = 1) && s.idle ("c", 0)) = true := by
    decide +kernel
  obtain ⟨s, run, hlast⟩ := Option.any_eq_true _ _ |>.mp hrun
  obtain ⟨hlength, hidle⟩ := Bool.and_eq_true_iff.mp hlast
  have hover := requestOver_of_idle (gateInv_of_storage run) hidle
  exact ⟨s, run, of_decide_eq_true hlength, hover, no_writer_outlives hrespects run ("c", 0) hover⟩

/-- The reset removes the entry with its writer, which stays registered as pending. -/
theorem reset_leaves_writer :
    ¬ ∀ as (s : Storage Unit Unit Unit Unit Unit Unit),
      exec (storageStep ⟨⟨[]⟩⟩ none storageRoute) (storageInit storageRoute) as = some s →
      ∀ id, RequestOver s id → NoPendingWriter s id := by
  intro hclaim
  have hrun : ((exec (storageStep ⟨⟨[]⟩⟩ none storageRoute) (storageInit storageRoute)
      resetUpload).any fun s => s.idle ("c", 0) &&
        s.files.any fun file => decide (file.owner = ("c", 0)) && file.handle.pending) = true := by
    decide +kernel
  obtain ⟨s, run, hlast⟩ := Option.any_eq_true _ _ |>.mp hrun
  obtain ⟨hidle, hfile⟩ := Bool.and_eq_true_iff.mp hlast
  obtain ⟨file, hmem, hfile⟩ := List.any_eq_true.mp hfile
  obtain ⟨howner, hpending⟩ := Bool.and_eq_true_iff.mp hfile
  have hover := requestOver_of_idle (gateInv_of_storage run) hidle
  have hyielded := hclaim resetUpload s run ("c", 0) hover file hmem (of_decide_eq_true howner)
  simp [hyielded] at hpending

end FacesHttp3.Server
