import FacesHttp3.Server.Machine

/-! # Transitions of the server

The steps of the server's threads as a relation, with one rule for each branch.
`step` is its executable form; what a step does is proved rule by rule. -/

namespace FacesHttp3.Server
open FacesHttp3.Lib FacesHttp3.Lib.Exec FacesHttp3.Request FacesHttp3.Router
open FacesHttp3.RequestsTable FacesHttp3.InFlight

variable {M H L C W ω : Type} [DecidableEq ω]

inductive Transition (config : ServerConfig) (form404 : Option ErrorForm)
    (manager : RouteManager M H L C) (s : State M H L C W ω) :
    Action L W ω → State M H L C W ω → Prop
  -- network thread
  | headersAdmitted {message : HeaderMessage} {path : String}
      {shared : Dispatch.State (PartialReq L W) ω} (idle : s.network = .idle)
      (found : extractPathFromHdr message.headers = some path)
      (protocol : Dispatch.step s.shared (.begin message.id) = some shared) :
      Transition config form404 manager s (.headers message) { s with
        shared
        verifier := (s.verifier.insertStreamPathForConn message.scid message.id.2 path).2
        network := .processing message
        received := s.received ++ [message] }
  | headersRefused {message : HeaderMessage} {shared : Dispatch.State (PartialReq L W) ω}
      (idle : s.network = .idle) (absent : extractPathFromHdr message.headers = none)
      (protocol : Dispatch.step s.shared (.cancelRequest message.id) = some shared) :
      Transition config form404 manager s (.headers message) { s with
        shared
        verifier := (s.verifier.isFinishedRequestAValidPath message.scid message.id.2).2
        network := .idle
        received := s.received ++ [message]
        shutdowns := s.shutdowns ++ [message.id] }
  | sectionQueued {message : HeaderMessage} {shared : Dispatch.State (PartialReq L W) ω}
      (processing : s.network = .processing message)
      (protocol : Dispatch.step s.shared (.startJob s.sections message.id) = some shared) :
      Transition config form404 manager s .processHeader
        { s.setJob s.sections (.queued message) with
          shared
          network := .idle
          sections := s.sections + 1 }
  | dataChecked {id : ReqId} (idle : s.network = .idle) (net : s.shared.net = .idle) :
      Transition config form404 manager s (.dataCheck id) { s with
        network := if Table.isEntryPartialReponseSet s.shared.table id then .entered id else .missing id }
  | dataEntered {id : ReqId} (missing : s.network = .missing id) :
      Transition config form404 manager s .dataSet { s with
        shared := s.shared.write id (writeFrom (Table.setRequestInTable s.shared.table id) id)
        network := .entered id }
  | dataWritten {id : ReqId} {packet : Bytes} (entered : s.network = .entered id) :
      Transition config form404 manager s (.dataWrite packet) { s with
        shared := s.shared.write id
          (writeFrom (Table.writeBodyPacket s.shared.table id packet false).1 id)
        network := .idle }
  | finishedHandled {id : ReqId} {scid : Bytes} {shared : Dispatch.State (PartialReq L W) ω}
      (idle : s.network = .idle)
      (known : (onFinished s.verifier scid id.2).1 = .handleFinishedStream)
      (protocol : Dispatch.step s.shared (.finish id) = some shared) :
      Transition config form404 manager s (.finished id scid) { s with
        shared
        verifier := (onFinished s.verifier scid id.2).2
        network := .idle }
  | finishedCancelled {id : ReqId} {scid : Bytes} {shared : Dispatch.State (PartialReq L W) ω}
      (idle : s.network = .idle) (unknown : (onFinished s.verifier scid id.2).1 = .cancelRequest)
      (protocol : Dispatch.step s.shared (.cancelRequest id) = some shared) :
      Transition config form404 manager s (.finished id scid) { s with
        shared
        verifier := (onFinished s.verifier scid id.2).2
        network := .idle }
  | streamReset {id : ReqId} {scid : Bytes} {shared : Dispatch.State (PartialReq L W) ω}
      (idle : s.network = .idle)
      (protocol : Dispatch.step s.shared (.cancelRequest id) = some shared) :
      Transition config form404 manager s (.reset id scid) { s with
        shared
        verifier := (s.verifier.isFinishedRequestAValidPath scid id.2).2
        network := .idle }
  | connectionClosed {conn : ConnId} {scid : Bytes} {shared : Dispatch.State (PartialReq L W) ω}
      (idle : s.network = .idle)
      (protocol : Dispatch.step s.shared (.cancelConnection conn) = some shared) :
      Transition config form404 manager s (.closeConnection conn scid) { s with
        shared
        verifier := s.verifier.removeConnection scid
        network := .idle }
  | streamRemoved {key : QueueKey} (idle : s.network = .idle) (net : s.shared.net = .idle) :
      Transition config form404 manager s (.removeStream key)
        { s with queues := s.queues.erase key, network := .idle }
  -- header processor
  | routed {number : Nat} {message : HeaderMessage} {job : MiddleWareJob M}
      (held : s.jobs number = some (.queued message)) (work : headerWork manager message = .execute job) :
      Transition config form404 manager s (.processNext number) (s.setJob number (.waiting job))
  | unrouted {number : Nat} {message : HeaderMessage}
      (held : s.jobs number = some (.queued message)) (work : headerWork manager message = .unknownRoute) :
      Transition config form404 manager s (.processNext number)
        (s.setJob number (.rejecting message .unknownRoute))
  | malformed {number : Nat} {message : HeaderMessage}
      (held : s.jobs number = some (.queued message)) (work : headerWork manager message = .malformed) :
      Transition config form404 manager s (.processNext number) (s.endJob number)
  -- middleware workers
  | jobTaken {number : Nat} {job : MiddleWareJob M} (held : s.jobs number = some (.waiting job)) :
      Transition config form404 manager s (.takeJob number)
        (s.setJob number (.calling job job.message.headers job.middlewareCollection []))
  | continued {number : Nat} {job : MiddleWareJob M} {tempsHeaders headers : List Header}
      {middleware : M} {rest : List M} {calls : List (Call M)}
      (held : s.jobs number = some (.calling job tempsHeaders (middleware :: rest) calls)) :
      Transition config form404 manager s (.callMiddleware number (.ok (.continued headers)))
        (s.setJob number (.calling job headers rest (calls ++ [⟨middleware, tempsHeaders, headers⟩])))
  | aborted {number : Nat} {job : MiddleWareJob M} {tempsHeaders : List Header} {middleware : M}
      {rest : List M} {calls : List (Call M)} {response : ErrorResponse}
      (held : s.jobs number = some (.calling job tempsHeaders (middleware :: rest) calls)) :
      Transition config form404 manager s (.callMiddleware number (.ok (.aborted response)))
        (s.setJob number (.rejecting job.message (.aborted response)))
  | failed {number : Nat} {job : MiddleWareJob M} {tempsHeaders : List Header} {middleware : M}
      {rest : List M} {calls : List (Call M)}
      (held : s.jobs number = some (.calling job tempsHeaders (middleware :: rest) calls)) :
      Transition config form404 manager s (.callMiddleware number (.error ()))
        (s.setJob number (.rejecting job.message
          (.aborted (.error415 (some (ascii "failed to call middleware"))))))
  | checked {number : Nat} {job : MiddleWareJob M} {headers : List Header} {calls : List (Call M)}
      (held : s.jobs number = some (.calling job headers [] calls)) :
      Transition config form404 manager s (.check number)
        { s.setJob number (.checked job
            (Table.isEntryPartialReponseSet s.shared.table job.message.id) headers) with
          passed := s.passed ++ [(job, calls)] }
  | completed {number : Nat} {uuid : String} {file : Option W} {job : MiddleWareJob M}
      {headers : List Header} {shared : Dispatch.State (PartialReq L W) ω}
      (held : s.jobs number = some (.checked job true headers))
      (protocol : Dispatch.step s.shared (.jobWrite number (writeFrom
        (Table.completeRequestEntryInTable s.shared.table job.message.id
          (completion config (job.accepted headers) uuid
            (s.pool.createStorage job.message.id (job.attributes manager).1 file).2
            (job.attributes manager))) job.message.id)) = some shared) :
      Transition config form404 manager s (.complete number uuid file)
        { s.setJob number (.written job) with
          shared
          pool := (s.pool.createStorage job.message.id (job.attributes manager).1 file).1 }
  | found {number : Nat} {job : MiddleWareJob M} {headers : List Header} {table : Table L W}
      {shared : Dispatch.State (PartialReq L W) ω}
      (held : s.jobs number = some (.checked job false headers))
      (found : Table.addPartialRequestFound s.shared.table job.message.id
        (job.accepted headers).method (job.accepted headers).headers (job.accepted headers).path
        (job.accepted headers).contentLength = some table)
      (protocol : Dispatch.step s.shared
        (.jobWrite number (writeFrom table job.message.id)) = some shared) :
      Transition config form404 manager s (.lookup number)
        { s.setJob number (.written job) with shared }
  | absent {number : Nat} {job : MiddleWareJob M} {headers : List Header}
      (held : s.jobs number = some (.checked job false headers))
      (absent : Table.addPartialRequestFound s.shared.table job.message.id
        (job.accepted headers).method (job.accepted headers).headers (job.accepted headers).path
        (job.accepted headers).contentLength = none) :
      Transition config form404 manager s (.lookup number) (s.setJob number (.creating job headers))
  | created {number : Nat} {uuid : String} {file : Option W} {job : MiddleWareJob M}
      {headers : List Header} {attributes : Option DataManagement × Option L}
      {shared : Dispatch.State (PartialReq L W) ω}
      (held : s.jobs number = some (.creating job headers))
      (attributes_eq : attributes =
        newRequestAttributes manager (job.accepted headers).path (job.accepted headers).method)
      (protocol : Dispatch.step s.shared (.jobWrite number (writeFrom
        (Table.addPartialRequestAbsent s.shared.table config job.message.id
          (job.accepted headers).method attributes.1 attributes.2 (job.accepted headers).headers
          (job.accepted headers).path (job.accepted headers).contentLength
          (!(job.accepted headers).moreFrames) uuid
          (s.pool.createStorage job.message.id attributes.1 file).2) job.message.id)) = some shared) :
      Transition config form404 manager s (.create number uuid file)
        { s.setJob number (.written job) with
          shared
          pool := (s.pool.createStorage job.message.id attributes.1 file).1 }
  | statusSent {number : Nat} {job : MiddleWareJob M} (held : s.jobs number = some (.written job)) :
      Transition config form404 manager s (.sendReceptionStatus number)
        { s.setJob number (.reported job) with queues := insert job.message.queueKey s.queues }
  | signalSent {number : Nat} {job : MiddleWareJob M} {shared : Dispatch.State (PartialReq L W) ω}
      (held : s.jobs number = some (.reported job))
      (protocol : Dispatch.step s.shared (.jobVerdict number .ready) = some shared) :
      Transition config form404 manager s (.sendSignal number) { s.endJob number with
        shared
        verdicts := s.verdicts ++ [(number, job.message.id, .ready)] }
  -- the thread that rejects and answers
  | rejectedSent {number : Nat} {message : HeaderMessage} {rejection : Rejection}
      {shared : Dispatch.State (PartialReq L W) ω}
      (held : s.jobs number = some (.rejecting message rejection))
      (protocol : Dispatch.step s.shared (.jobVerdict number .rejected) = some shared) :
      Transition config form404 manager s (.sendRejected number)
        { s.setJob number (.rejected message rejection) with
          shared
          verdicts := s.verdicts ++ [(number, message.id, .rejected)] }
  | errorQueueInserted {number : Nat} {message : HeaderMessage} {rejection : Rejection}
      (held : s.jobs number = some (.rejected message rejection)) :
      Transition config form404 manager s (.insertErrorQueue number)
        { s.setJob number (.answering message rejection) with
          queues := insert message.queueKey s.queues }
  | bodySenderMissing {number : Nat} {message : HeaderMessage} {rejection : Rejection}
      (held : s.jobs number = some (.answering message rejection))
      (missing : (rejection.header form404).body.isSome ∧ message.queueKey ∉ s.queues) :
      Transition config form404 manager s (.getSenders number) (s.endJob number)
  | sendersGot {number : Nat} {message : HeaderMessage} {rejection : Rejection}
      (held : s.jobs number = some (.answering message rejection)) :
      Transition config form404 manager s (.getSenders number)
        (s.setJob number (.sending message rejection))
  | errorSent {number : Nat} {message : HeaderMessage} {rejection : Rejection}
      (held : s.jobs number = some (.sending message rejection))
      (open_ : message.queueKey ∈ s.queues) :
      Transition config form404 manager s (.sendError number) { s.endJob number with
        errors := s.errors ++ [(number, message.queueKey, rejection.header form404)] }
  | errorLost {number : Nat} {message : HeaderMessage} {rejection : Rejection}
      (held : s.jobs number = some (.sending message rejection))
      (closed : message.queueKey ∉ s.queues) :
      Transition config form404 manager s (.sendError number) (s.endJob number)
  -- response workers
  | eventBuilt {w : ω} {scid : Bytes} {id : ReqId} {born taken : Nat}
      {shared : Dispatch.State (PartialReq L W) ω} (at_ : s.shared.workers w = .taken id born taken)
      (protocol : Dispatch.step s.shared
        (.buildRouteEvent w fun entry => (entry.buildRouteEvent id scid).1) = some shared) :
      Transition config form404 manager s (.buildRouteEvent w scid) { s with
        shared
        responders := Function.update s.responders w (some (Responder.ofEvent manager scid
          ((s.shared.table id).bind fun entry => (entry.buildRouteEvent id scid).2.1))) }
  | queueInserted {w : ω} {id : ReqId} {responder : Responder W}
      (at_ : s.shared.workers w = .responding id) (held : s.responders w = some responder)
      (inserts : responder.Inserts = true) :
      Transition config form404 manager s (.insertQueue w) { s with
        responders := Function.update s.responders w (some responder.insertQueue)
        queues := insert (id.2, responder.scid) s.queues }
  | handlerCalled {w : ω} {id : ReqId} {responder : Responder W}
      (at_ : s.shared.workers w = .responding id) (held : s.responders w = some responder)
      (hasQueue : responder.hasQueue = true) (fresh : responder.called = false) :
      Transition config form404 manager s (.callHandler w) { s with
        responders := Function.update s.responders w (some { responder with called := true })
        invocations := s.invocations ++
          respond manager responder.event (decide ((id.2, responder.scid) ∈ s.queues)) }
  | preparationEnded {w : ω} {responder : Responder W} {shared : Dispatch.State (PartialReq L W) ω}
      (held : s.responders w = some responder) (called : responder.called = true)
      (inserted : responder.again = false)
      (protocol : Dispatch.step s.shared (.endPreparation w) = some shared) :
      Transition config form404 manager s (.endPreparation w) { s with
        shared
        responders := Function.update s.responders w none }
  -- any of them, in the tables of the protocol only
  | along {action : Dispatch.Action (PartialReq L W) ω} {shared : Dispatch.State (PartialReq L W) ω}
      (internal : Internal action = true)
      (protocol : Dispatch.step s.shared action = some shared) :
      Transition config form404 manager s (.protocol action) { s with shared }

/-- Every step follows one of the rules. -/
theorem step_transition {config : ServerConfig} {form404 : Option ErrorForm}
    {manager : RouteManager M H L C} {s t : State M H L C W ω} {a : Action L W ω}
    (h : step config form404 manager s a = some t) : Transition config form404 manager s a t := by
  cases a with
  | headers message =>
    cases hnet : s.network <;> cases hpath : extractPathFromHdr message.headers <;>
      simp only [step, hnet, hpath, reduceCtorEq] at h <;>
      obtain ⟨shared, hshared, rfl⟩ := Option.map_eq_some_iff.mp h
    · exact .headersRefused hnet hpath hshared
    · exact .headersAdmitted hnet hpath hshared
  | processHeader =>
    cases hnet : s.network <;> simp only [step, hnet, reduceCtorEq] at h
    obtain ⟨shared, hshared, rfl⟩ := Option.map_eq_some_iff.mp h
    exact .sectionQueued hnet hshared
  | dataCheck id =>
    cases hnet : s.network <;> simp only [step, hnet, reduceCtorEq] at h
    obtain ⟨hidle, rfl⟩ := guarded_eq_some_iff.mp h
    exact .dataChecked hnet hidle
  | dataSet =>
    cases hnet : s.network <;> simp only [step, hnet, reduceCtorEq, Option.some.injEq] at h
    exact h ▸ .dataEntered hnet
  | dataWrite packet =>
    cases hnet : s.network <;> simp only [step, hnet, reduceCtorEq, Option.some.injEq] at h
    exact h ▸ .dataWritten hnet
  | finished id scid =>
    cases hnet : s.network <;> simp only [step, hnet, reduceCtorEq] at h
    cases haction : (onFinished s.verifier scid id.2).1 <;> simp only [haction] at h <;>
      obtain ⟨shared, hshared, rfl⟩ := Option.map_eq_some_iff.mp h
    · exact .finishedHandled hnet haction hshared
    · exact .finishedCancelled hnet haction hshared
  | reset id scid =>
    cases hnet : s.network <;> simp only [step, hnet, reduceCtorEq] at h
    obtain ⟨shared, hshared, rfl⟩ := Option.map_eq_some_iff.mp h
    exact .streamReset hnet hshared
  | closeConnection conn scid =>
    cases hnet : s.network <;> simp only [step, hnet, reduceCtorEq] at h
    obtain ⟨shared, hshared, rfl⟩ := Option.map_eq_some_iff.mp h
    exact .connectionClosed hnet hshared
  | removeStream key =>
    cases hnet : s.network <;> simp only [step, hnet, reduceCtorEq] at h
    obtain ⟨hidle, rfl⟩ := guarded_eq_some_iff.mp h
    exact .streamRemoved hnet hidle
  | processNext number =>
    simp only [step] at h
    split at h
    case h_2 => cases h
    rename_i message hheld
    cases hwork : headerWork manager message <;> simp only [hwork, Option.some.injEq] at h <;> subst h
    · exact .routed hheld hwork
    · exact .unrouted hheld hwork
    · exact .malformed hheld hwork
  | takeJob number =>
    simp only [step] at h
    split at h <;> cases h
    exact .jobTaken ‹_›
  | callMiddleware number answer =>
    simp only [step] at h
    split at h
    case h_2 => cases h
    rename_i hheld
    split at h <;> cases h
    · exact .continued hheld
    · exact .aborted hheld
    · exact .failed hheld
  | check number =>
    simp only [step] at h
    split at h <;> cases h
    exact .checked ‹_›
  | complete number uuid file =>
    simp only [step] at h
    split at h
    case h_2 => cases h
    rename_i hheld
    obtain ⟨shared, hshared, rfl⟩ := Option.map_eq_some_iff.mp h
    exact .completed hheld hshared
  | lookup number =>
    simp only [step] at h
    split at h
    case h_2 => cases h
    rename_i hheld
    split at h
    · rename_i hfound
      obtain ⟨shared, hshared, rfl⟩ := Option.map_eq_some_iff.mp h
      exact .found hheld hfound hshared
    · cases h
      exact .absent hheld ‹_›
  | create number uuid file =>
    simp only [step] at h
    split at h
    case h_2 => cases h
    rename_i hheld
    obtain ⟨shared, hshared, rfl⟩ := Option.map_eq_some_iff.mp h
    exact .created hheld rfl hshared
  | sendReceptionStatus number =>
    simp only [step] at h
    split at h <;> cases h
    exact .statusSent ‹_›
  | sendSignal number =>
    simp only [step] at h
    split at h
    case h_2 => cases h
    rename_i hheld
    obtain ⟨shared, hshared, rfl⟩ := Option.map_eq_some_iff.mp h
    exact .signalSent hheld hshared
  | sendRejected number =>
    simp only [step] at h
    split at h
    case h_2 => cases h
    rename_i hheld
    obtain ⟨shared, hshared, rfl⟩ := Option.map_eq_some_iff.mp h
    exact .rejectedSent hheld hshared
  | insertErrorQueue number =>
    simp only [step] at h
    split at h <;> cases h
    exact .errorQueueInserted ‹_›
  | getSenders number =>
    simp only [step] at h
    split at h
    case h_2 => cases h
    rename_i hheld
    split at h <;> cases h
    · exact .bodySenderMissing hheld ‹_›
    · exact .sendersGot hheld
  | sendError number =>
    simp only [step] at h
    split at h
    case h_2 => cases h
    rename_i hheld
    split at h <;> cases h
    · exact .errorSent hheld ‹_›
    · exact .errorLost hheld ‹_›
  | buildRouteEvent w scid =>
    simp only [step] at h
    split at h
    case h_2 => cases h
    rename_i hat
    obtain ⟨shared, hshared, rfl⟩ := Option.map_eq_some_iff.mp h
    exact .eventBuilt hat hshared
  | insertQueue w =>
    simp only [step] at h
    split at h
    case h_2 => cases h
    rename_i hat hheld
    obtain ⟨hinserts, rfl⟩ := guarded_eq_some_iff.mp h
    exact .queueInserted hat hheld hinserts
  | callHandler w =>
    simp only [step] at h
    split at h
    case h_2 => cases h
    rename_i hat hheld
    obtain ⟨⟨hqueue, hfresh⟩, rfl⟩ := guarded_eq_some_iff.mp h
    exact .handlerCalled hat hheld hqueue hfresh
  | endPreparation w =>
    simp only [step] at h
    split at h
    case h_2 => cases h
    rename_i hheld
    obtain ⟨shared, hshared, rfl⟩ := Option.map_eq_some_iff.mp h
    exact .preparationEnded hheld rfl rfl hshared
  | protocol action =>
    simp only [step] at h
    split at h
    case isFalse => cases h
    rename_i hinternal
    obtain ⟨shared, hshared, rfl⟩ := Option.map_eq_some_iff.mp h
    exact .along hinternal hshared

end FacesHttp3.Server
