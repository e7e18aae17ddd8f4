import FacesHttp3.Server.Sections

/-! # The entry of a request

What each step of the server does to the entry of one request in the request
table: the network thread enters it and its packets, the worker of a section
writes what the headers decide, a response worker takes the event out of it, and
four steps remove it. -/

namespace FacesHttp3.Server
open FacesHttp3.Lib FacesHttp3.Lib.Exec FacesHttp3.Request FacesHttp3.Router
open FacesHttp3.RequestsTable FacesHttp3.InFlight

variable {M H L C W ω : Type}

/-! ## Removal -/

/-- A step that removes the entry of `id` from the request table. -/
def ErasesEntry {ρ : Type} (id : ReqId) (s : Dispatch.State ρ ω) : Dispatch.Action ρ ω → Prop
  | .discard => s.net.Cancels id
  | .receiverDiscard => s.receiver = some id
  | .cleanEntry w => s.workers w = .cleaning id
  | .discardRejected w => s.workers w = .rejecting id
  | _ => False

/-- The step removes the entry of `id`. -/
def Erases (id : ReqId) (s : State M H L C W ω) : Action L W ω → Prop
  | .protocol action => ErasesEntry id s.shared action
  | _ => False

variable [DecidableEq ω] {config : ServerConfig} {form404 : Option ErrorForm}
  {manager : RouteManager M H L C} {s t : State M H L C W ω} {a : Action L W ω} {number : Nat}

/-- A quiet step removes the entry or leaves it as it is. -/
theorem quiet_table {ρ : Type} {s t : Dispatch.State ρ ω} {a : Dispatch.Action ρ ω}
    (hq : Quiet a) (h : Dispatch.step s a = some t) (id : ReqId) :
    (¬ ErasesEntry id s a ∧ t.table id = s.table id) ∨ (ErasesEntry id s a ∧ t.table id = none) := by
  -- the entry of one request is removed
  have herase : ∀ {i : ReqId}, (ErasesEntry id s a ↔ id = i) →
      (¬ ErasesEntry id s a ∧ s.table.erase i id = s.table id) ∨
        (ErasesEntry id s a ∧ s.table.erase i id = none) := by
    intro i hi
    by_cases hid : id = i
    · exact .inr ⟨hi.mpr hid, by rw [hid, PMap.erase_self]⟩
    · exact .inl ⟨fun he => hid (hi.mp he), PMap.erase_of_ne _ hid⟩
  cases Dispatch.step_transition h with
  | data | started | wrote | judged | prepared | preparedEmpty => exact hq.elim
  | begun | created | finished | cancelled | cancelledConnection | received | unknown | picked
  | taken | rejected | missed | retried | dropped | requeued | ended =>
    exact .inl ⟨fun he => he, rfl⟩
  | discarded net => exact herase (by simp [ErasesEntry, net, Dispatch.NetPc.Cancels, eq_comm])
  | @discardedConnection conn net =>
    by_cases hid : id.1 = conn
    · exact .inr ⟨by simp [ErasesEntry, net, Dispatch.NetPc.Cancels, hid], by simp [hid]⟩
    · exact .inl ⟨by simp [ErasesEntry, net, Dispatch.NetPc.Cancels, Ne.symm hid], by simp [hid]⟩
  | receiverDiscarded receiver => exact herase (by simp [ErasesEntry, receiver, eq_comm])
  | cleaned at_ | discardedRejected at_ => exact herase (by simp [ErasesEntry, at_, eq_comm])

/-! ## The steps on one entry -/

/-- The step reads or writes the entry of `id` in order to change it. -/
def Touches (id : ReqId) (s : State M H L C W ω) : Action L W ω → Prop
  | .dataSet => s.network = .missing id
  | .dataWrite _ => s.network = .entered id
  | .complete number _ _ | .lookup number | .create number _ _ =>
    ∃ pc, s.jobs number = some pc ∧ pc.message.id = id
  | .buildRouteEvent w _ => ∃ born taken, s.shared.workers w = .taken id born taken
  | .protocol action => ErasesEntry id s.shared action
  | _ => False

/-- What a step of the server does to the entry of `id`. -/
inductive EntryStep (config : ServerConfig) (manager : RouteManager M H L C) (id : ReqId)
    (s t : State M H L C W ω) : Action L W ω → Prop
  | same {a : Action L W ω} (untouched : ¬ Touches id s a)
      (table : t.shared.table id = s.shared.table id) : EntryStep config manager id s t a
  | set (network : s.network = .missing id)
      (table : t.shared.table id = Table.setRequestInTable s.shared.table id id) :
      EntryStep config manager id s t .dataSet
  | packet {packet : Bytes} (network : s.network = .entered id)
      (table : t.shared.table id = (Table.writeBodyPacket s.shared.table id packet false).1 id) :
      EntryStep config manager id s t (.dataWrite packet)
  | completed {number : Nat} {uuid : String} {file : Option W} {job : MiddleWareJob M}
      {headers : List Header} (job_eq : s.jobs number = some (.checked job true headers))
      (id_eq : job.message.id = id)
      (table : t.shared.table id = (s.shared.table id).map (PartialReq.complete
        (completion config (job.accepted headers) uuid
          (s.pool.createStorage id (job.attributes manager).1 file).2 (job.attributes manager)))) :
      EntryStep config manager id s t (.complete number uuid file)
  | found {number : Nat} {job : MiddleWareJob M} {headers : List Header}
      (job_eq : s.jobs number = some (.checked job false headers)) (id_eq : job.message.id = id)
      (table : t.shared.table id = (s.shared.table id).map
        (PartialReq.fill job.method job.path headers job.contentLength)) :
      EntryStep config manager id s t (.lookup number)
  | created {number : Nat} {uuid : String} {file : Option W} {job : MiddleWareJob M}
      {headers : List Header} (job_eq : s.jobs number = some (.creating job headers))
      (id_eq : job.message.id = id)
      (table : t.shared.table id = Table.addPartialRequestAbsent s.shared.table config id
        job.method (newRequestAttributes manager job.path job.method).1
        (newRequestAttributes manager job.path job.method).2 headers job.path job.contentLength
        (!(job.accepted headers).moreFrames) uuid
        (s.pool.createStorage id (newRequestAttributes manager job.path job.method).1 file).2 id) :
      EntryStep config manager id s t (.create number uuid file)
  | taken {w : ω} {scid : Bytes} {born taken : Nat} (worker : s.shared.workers w = .taken id born taken)
      (table : t.shared.table id =
        (s.shared.table id).map fun entry => (entry.buildRouteEvent id scid).1) :
      EntryStep config manager id s t (.buildRouteEvent w scid)
  | erased {action : Dispatch.Action (PartialReq L W) ω} (erases : ErasesEntry id s.shared action)
      (table : t.shared.table id = none) : EntryStep config manager id s t (.protocol action)

/-- An entry is given up only for a file that was opened and got no writer. -/
theorem newEntryStorage_ne_none (config : ServerConfig) (headers : List Header) (uuid : String)
    {creation : FileCreation W} (hcreation : creation ≠ .handleFailed)
    (dataManagementType : Option DataManagement) :
    newEntryStorage config headers uuid creation dataManagementType ≠ none := by
  unfold newEntryStorage
  split
  · cases creation with
    | handleFailed => exact absurd rfl hcreation
    | created writer => simp
    | createFailed => simp
  · simp
  · simp

omit [DecidableEq ω] in
/-- A write of the entry of `i`, seen from `id`. -/
theorem write_apply (s : Dispatch.State (PartialReq L W) ω) (id i : ReqId) (table : Table L W) :
    (s.write i (writeFrom table i)).table id = if id = i then table id else s.table id := by
  by_cases hid : id = i
  · subst hid
    simp [Dispatch.State.write, writeFrom]
  · simp [Dispatch.State.write, hid]

/-- A job writes the entry of its own section's stream. -/
theorem jobWrite_table {i : ReqId} {table : Table L W} {shared : Dispatch.State (PartialReq L W) ω}
    (hstep : Dispatch.step s.shared (.jobWrite number (writeFrom table i)) = some shared)
    (hi : s.shared.jobs number = some i) (id : ReqId) :
    shared.table id = if id = i then table id else s.shared.table id := by
  obtain rfl := jobWrite_shared hi hstep
  exact write_apply _ _ _ _

theorem jobWrite_self {i : ReqId} {table : Table L W} {shared : Dispatch.State (PartialReq L W) ω}
    (hstep : Dispatch.step s.shared (.jobWrite number (writeFrom table i)) = some shared)
    (hi : s.shared.jobs number = some i) : shared.table i = table i :=
  (jobWrite_table hstep hi i).trans (if_pos rfl)

omit [DecidableEq ω] in
theorem not_touches_of_job {pc : JobPc M} {id : ReqId} (hold : s.jobs number = some pc)
    (hid : ¬ id = pc.message.id) : ¬ ∃ pc', s.jobs number = some pc' ∧ pc'.message.id = id := by
  intro ⟨pc', hpc', hid'⟩
  cases hold.symm.trans hpc'
  exact hid hid'.symm

/-- A quiet step of the protocol that does not remove the entry. -/
theorem EntryStep.of_quiet {action : Dispatch.Action (PartialReq L W) ω} {id : ReqId}
    (hstep : Dispatch.step s.shared action = some t.shared) (hq : Quiet action)
    (hkeeps : ¬ ErasesEntry id s.shared action) (htouches : ¬ Touches id s a) :
    EntryStep config manager id s t a := by
  rcases quiet_table hq hstep id with ⟨-, hsame⟩ | ⟨herases, -⟩
  · exact .same htouches hsame
  · exact absurd herases hkeeps

/-- A response worker takes the event out of the entry of the request it answers. -/
theorem buildRouteEvent_table {w : ω} {i : ReqId} {born taken : Nat}
    {take : PartialReq L W → PartialReq L W} {shared : Dispatch.State (PartialReq L W) ω}
    (hw : s.shared.workers w = .taken i born taken)
    (hstep : Dispatch.step s.shared (.buildRouteEvent w take) = some shared) (id : ReqId) :
    shared.table id = if id = i then (s.shared.table id).map take else s.shared.table id := by
  cases Dispatch.step_transition hstep with
  | prepared at_ found =>
    cases hw.symm.trans at_
    by_cases hid : id = i
    · subst hid
      simp [Dispatch.State.setWorker, found]
    · rw [if_neg hid]
      exact PMap.insert_of_ne _ _ hid
  | preparedEmpty at_ absent =>
    cases hw.symm.trans at_
    by_cases hid : id = i
    · subst hid
      simp [Dispatch.State.setWorker, Dispatch.State.record, absent]
    · rw [if_neg hid]
      rfl

/-- Every step of the server, seen from the entry of one request. -/
theorem step_entry (h : GateInv manager s) (hstep : step config form404 manager s a = some t)
    (id : ReqId) : EntryStep config manager id s t a := by
  cases step_transition hstep with
  | dataChecked | streamRemoved | routed | unrouted | malformed | jobTaken | continued | aborted | failed
  | checked | statusSent | errorQueueInserted | bodySenderMissing | sendersGot | errorSent | errorLost
  | queueInserted | handlerCalled => exact .same (fun ht => ht) rfl
  | headersAdmitted _ _ protocol | headersRefused _ _ protocol | finishedHandled _ _ protocol
  | finishedCancelled _ _ protocol | streamReset _ protocol | connectionClosed _ protocol
  | preparationEnded _ _ _ protocol =>
    exact .of_quiet protocol trivial (fun he => he) (fun ht => ht)
  | sectionQueued _ protocol =>
    obtain ⟨-, rfl⟩ := guarded_eq_some_iff.mp protocol
    exact .same (fun ht => ht) rfl
  | @dataEntered i missing =>
    by_cases hid : id = i
    · subst hid
      exact .set missing ((write_apply _ _ _ _).trans (if_pos rfl))
    · exact .same (fun ht => hid (NetworkPc.missing.inj (ht.symm.trans missing)))
        ((write_apply _ _ _ _).trans (if_neg hid))
  | @dataWritten i _ entered =>
    by_cases hid : id = i
    · subst hid
      exact .packet entered ((write_apply _ _ _ _).trans (if_pos rfl))
    · exact .same (fun ht => hid (NetworkPc.entered.inj (ht.symm.trans entered)))
        ((write_apply _ _ _ _).trans (if_neg hid))
  | @completed _ _ _ job _ _ held protocol =>
    have htable := jobWrite_table protocol (h.shared _ _ held rfl) id
    by_cases hid : id = job.message.id
    · subst hid
      exact .completed held rfl (htable.trans ((if_pos rfl).trans (PMap.modify_self _ _ _)))
    · exact .same (not_touches_of_job held hid) (htable.trans (if_neg hid))
  | @found _ job _ _ _ held found protocol =>
    have htable := jobWrite_table protocol (h.shared _ _ held rfl) id
    by_cases hid : id = job.message.id
    · subst hid
      obtain ⟨old, -, rfl⟩ := Option.map_eq_some_iff.mp found
      exact .found held rfl (htable.trans ((if_pos rfl).trans (PMap.modify_self _ _ _)))
    · exact .same (not_touches_of_job held hid) (htable.trans (if_neg hid))
  | @absent _ job _ held absent =>
    have hnone : s.shared.table job.message.id = none := Option.map_eq_none_iff.mp absent
    by_cases hid : id = job.message.id
    · subst hid
      exact .found held rfl (by simp [State.setJob, hnone])
    · exact .same (not_touches_of_job held hid) rfl
  | @created _ _ _ job _ _ _ held attributes_eq protocol =>
    have htable := jobWrite_table protocol (h.shared _ _ held rfl) id
    by_cases hid : id = job.message.id
    · subst hid attributes_eq
      exact .created held rfl (htable.trans (if_pos rfl))
    · exact .same (not_touches_of_job held hid) (htable.trans (if_neg hid))
  | signalSent _ protocol | rejectedSent _ protocol =>
    exact .same (fun ht => ht) (congrFun (jobVerdict_shared protocol).2.2 id)
  | @eventBuilt w scid i born taken _ at_ protocol =>
    have htable := buildRouteEvent_table at_ protocol id
    by_cases hid : id = i
    · subst hid
      exact .taken at_ (htable.trans (if_pos rfl))
    · refine .same ?_ (htable.trans (if_neg hid))
      intro htouches
      obtain ⟨born', taken', hw⟩ := htouches
      have heq := hw.symm.trans at_
      simp only [Dispatch.RegPc.taken.injEq] at heq
      exact hid heq.1
  | along internal protocol =>
    rcases quiet_table (quiet_of_internal internal) protocol id with ⟨herases, hsame⟩ | ⟨herases, hnone⟩
    · exact .same herases hsame
    · exact .erased herases hnone

end FacesHttp3.Server
