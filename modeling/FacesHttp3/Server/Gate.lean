import FacesHttp3.Dispatch.Transitions
import FacesHttp3.Server.Transitions

/-! # The middleware gate

A handler or a downstream callback runs for a stream only if a header section of
that stream passed the middlewares of that very route or downstream. The path and
the method in the request table are those of a job that passed, the path perhaps
without its query string, and for paths registered without one this makes the
lookups at header time and at dispatch time agree. -/

namespace FacesHttp3.Server
open FacesHttp3.Lib FacesHttp3.Lib.Exec FacesHttp3.Request FacesHttp3.Router
open FacesHttp3.RequestsTable FacesHttp3.InFlight

variable {M H L C W ω : Type}

/-- Each call was given what the one before it returned, from `headers` to `last`. -/
def Chained : List Header → List (Call M) → List Header → Prop
  | headers, [], last => headers = last
  | headers, call :: calls, last => call.given = headers ∧ Chained call.returned calls last

theorem Chained.snoc {headers last : List Header} {calls : List (Call M)} (h : Chained headers calls last)
    (middleware : M) (returned : List Header) :
    Chained headers (calls ++ [⟨middleware, last, returned⟩]) returned := by
  induction calls generalizing headers with
  | nil => exact ⟨h.symm, rfl⟩
  | cons call calls ih => exact ⟨h.1, ih h.2⟩

/-- A header section of the stream `id` went through `middlewares`, in order, and
each returned `Continue`. -/
def Gated (s : State M H L C W ω) (id : ReqId) (middlewares : List M) : Prop :=
  ∃ passed ∈ s.passed, passed.1.message ∈ s.received ∧ passed.1.message.id = id ∧
    passed.2.map Call.middleware = middlewares ∧
    ∃ last, Chained passed.1.message.headers passed.2 last

/-- The gate of one call of the user's code. -/
def GateOf (manager : RouteManager M H L C) (s : State M H L C W ω) : Invocation H C W → Prop
  | .handler event handler =>
    ∃ route, manager.routesFormats.find event.path event.method = some route ∧
      handler ∈ route.handles ∧ Gated s event.id route.middlewares
  | .downStream event callback =>
    ∃ stream, manager.getStreamFromPath event.path = some stream ∧
      callback = stream.streamHandler ∧ Gated s event.id stream.middlewares

/-! ## What the jobs know -/

/-- The job is the one the header processor makes of a received section. -/
structure JobSound (manager : RouteManager M H L C) (received : List HeaderMessage)
    (job : MiddleWareJob M) : Prop where
  received : job.message ∈ received
  work : headerWork manager job.message = .execute job

/-- Its middlewares all continued. -/
structure Passed (manager : RouteManager M H L C) (received : List HeaderMessage)
    (job : MiddleWareJob M) (calls : List (Call M)) : Prop where
  sound : JobSound manager received job
  called : calls.map Call.middleware = job.middlewareCollection
  chained : ∃ last, Chained job.message.headers calls last

def JobPc.Sound (manager : RouteManager M H L C) (received : List HeaderMessage)
    (passed : List (MiddleWareJob M × List (Call M))) : JobPc M → Prop
  | .queued message => message ∈ received
  | .waiting job => JobSound manager received job
  | .calling job tempsHeaders rest calls => JobSound manager received job ∧
    calls.map Call.middleware ++ rest = job.middlewareCollection ∧
    Chained job.message.headers calls tempsHeaders
  | .checked job _ _ | .creating job _ => ∃ calls, (job, calls) ∈ passed
  | .written _ | .reported _ | .rejecting _ _ | .rejected _ _ | .answering _ _ | .sending _ _ => True

/-- Path and method are those of a job of the stream that passed, the path perhaps
without its query string. -/
def Vouched (passed : List (MiddleWareJob M × List (Call M))) (id : ReqId) (path : String)
    (method : H3Method) : Prop :=
  ∃ p ∈ passed, p.1.message.id = id ∧ p.1.method = method ∧
    (path = p.1.path ∨ path = (ReqArgs.parseArgs p.1.path).1)

/-- What an entry of the request table says was vouched for. -/
def EntryVouched (passed : List (MiddleWareJob M × List (Call M))) (id : ReqId)
    (entry : PartialReq L W) : Prop :=
  ∀ path method, entry.path = some path → entry.method = some method → Vouched passed id path method

structure GateInv (manager : RouteManager M H L C) (s : State M H L C W ω) : Prop where
  processing : ∀ message, s.network = .processing message → message ∈ s.received
  jobs : ∀ number pc, s.jobs number = some pc → pc.Sound manager s.received s.passed
  shared : ∀ number pc, s.jobs number = some pc → pc.Judged = false →
    s.shared.jobs number = some pc.message.id
  fresh : ∀ number, s.sections ≤ number → s.jobs number = none ∧ s.shared.jobs number = none
  passed : ∀ p ∈ s.passed, Passed manager s.received p.1 p.2
  table : ∀ id entry, s.shared.table id = some entry → EntryVouched s.passed id entry
  responders : ∀ w responder event, s.responders w = some responder →
    responder.event = some event → Vouched s.passed event.id event.path event.method
  invocations : ∀ invocation ∈ s.invocations, Vouched s.passed invocation.event.id
    invocation.event.path invocation.event.method ∧ ∃ opened,
      invocation ∈ respond manager (some invocation.event) opened

/-! ## From the job to the route -/

theorem headerWork_execute {manager : RouteManager M H L C} {message : HeaderMessage}
    {job : MiddleWareJob M} (h : headerWork manager message = .execute job) :
    job.message = message ∧
      ((∃ route args, manager.getRoutesFromPathAndMethod job.path job.method = some (route, args) ∧
          job.middlewareCollection = route.middlewares) ∨
        manager.getRoutesFromPathAndMethod job.path job.method = none ∧
          ∃ stream, manager.getStreamFromPath job.path = some stream ∧
            job.middlewareCollection = stream.middlewares) := by
  unfold headerWork at h
  split at h
  · cases h
  split at h
  · cases h
  split at h
  · rename_i route args hroute
    cases h
    exact ⟨rfl, .inl ⟨route, args, hroute, rfl⟩⟩
  · rename_i hroute
    split at h
    · rename_i stream hstream
      cases h
      exact ⟨rfl, .inr ⟨hroute, stream, hstream, rfl⟩⟩
    · cases h

theorem gated_of_passed {manager : RouteManager M H L C} {s : State M H L C W ω}
    {p : MiddleWareJob M × List (Call M)} (hp : p ∈ s.passed) (h : Passed manager s.received p.1 p.2) :
    Gated s p.1.message.id p.1.middlewareCollection :=
  ⟨p, hp, h.sound.received, rfl, h.called, h.chained⟩

/-- A registered path is the path of the job without its query string. -/
theorem vouched_path {path raw : String} (hpath : path = raw ∨ path = (ReqArgs.parseArgs raw).1)
    (hquery : ¬ HasQuery path) : path = (ReqArgs.parseArgs raw).1 := by
  rcases hpath with rfl | h
  · rw [parseArgs_of_not_hasQuery hquery]
  · exact h

theorem isStreamPath_of_some {manager : RouteManager M H L C} {path : String} {stream : Router.Stream M C}
    (h : manager.getStreamFromPath path = some stream) : manager.IsStreamPath path := by
  unfold RouteManager.getStreamFromPath at h
  by_contra hno
  have hnone : manager.streamSessions.lookup path = none := by
    rw [List.lookup_eq_none_iff]
    intro entry hentry
    have : path ≠ entry.1 := fun heq => hno (heq ▸ List.mem_map_of_mem hentry)
    simpa using this
  rw [hnone] at h
  cases h

/-- The handlers of an event run behind the middlewares of their route. -/
theorem gate_handler {manager : RouteManager M H L C} {s : State M H L C W ω}
    (hpaths : manager.PathsHaveNoQuery) (hinv : ∀ p ∈ s.passed, Passed manager s.received p.1 p.2)
    {event : FinishedEvent W} {handler : H} (hv : Vouched s.passed event.id event.path event.method)
    (hmem : handler ∈ manager.routeEventDispatcher.handlersFor event.path event.method) :
    GateOf manager s (.handler event handler) := by
  obtain ⟨p, hp, hid, hmethod, hpath⟩ := hv
  have happly := RouteEventDispatcher.setHandles_apply manager.routesFormats event.path event.method
  cases hfind : manager.routesFormats.find event.path event.method with
  | none =>
    simp [RouteEventDispatcher.handlersFor, RouteManager.routeEventDispatcher, happly, hfind] at hmem
  | some route =>
    have hhandler : handler ∈ route.handles := by
      simpa [RouteEventDispatcher.handlersFor, RouteManager.routeEventDispatcher, happly,
        hfind] using hmem
    have hquery := hpaths.1 _ (RouteTable.find_some hfind).2.2
    have hfound : manager.getRoutesFromPathAndMethod p.1.path p.1.method =
        some (route, (ReqArgs.parseArgs p.1.path).2) := by
      have hsame := hfind
      rw [vouched_path hpath hquery, ← hmethod] at hsame
      simp [RouteManager.getRoutesFromPathAndMethod, hsame]
    obtain ⟨-, hjob⟩ := headerWork_execute (hinv p hp).sound.work
    rcases hjob with ⟨route', args, hroute, hcoll⟩ | ⟨hnone, -⟩
    · cases hfound.symm.trans hroute
      refine ⟨route, hfind, hhandler, ?_⟩
      rw [← hcoll, ← hid]
      exact gated_of_passed hp (hinv p hp)
    · cases hfound.symm.trans hnone

/-- A downstream callback runs behind the middlewares of its downstream. -/
theorem gate_downStream {manager : RouteManager M H L C} {s : State M H L C W ω}
    (hpaths : manager.PathsHaveNoQuery) (hinv : ∀ p ∈ s.passed, Passed manager s.received p.1 p.2)
    {event : FinishedEvent W} {stream : Router.Stream M C}
    (hv : Vouched s.passed event.id event.path event.method)
    (hnone : manager.getRoutesFromPathAndMethod event.path event.method = none)
    (hstream : manager.getStreamFromPath event.path = some stream) :
    GateOf manager s (.downStream event stream.streamHandler) := by
  obtain ⟨p, hp, hid, hmethod, hpath⟩ := hv
  have hquery := hpaths.2 _ (isStreamPath_of_some hstream)
  have hsame := vouched_path hpath hquery
  have hfind : manager.routesFormats.find event.path event.method = none := by
    simpa [RouteManager.getRoutesFromPathAndMethod, parseArgs_of_not_hasQuery hquery] using hnone
  obtain ⟨-, hjob⟩ := headerWork_execute (hinv p hp).sound.work
  rcases hjob with ⟨route, args, hroute, -⟩ | ⟨-, stream', hstream', hcoll⟩
  · rw [hsame, ← hmethod] at hfind
    simp [RouteManager.getRoutesFromPathAndMethod, hfind] at hroute
  · -- the path of the job is registered, so it has no query string either
    have hraw : event.path = p.1.path := by
      rw [hsame, parseArgs_of_not_hasQuery (hpaths.2 _ (isStreamPath_of_some hstream'))]
    rw [hraw, hstream'] at hstream
    cases hstream
    refine ⟨stream, hraw ▸ hstream', rfl, ?_⟩
    rw [← hcoll, ← hid]
    exact gated_of_passed hp (hinv p hp)

theorem gate_of_inv {manager : RouteManager M H L C} {s : State M H L C W ω}
    (hpaths : manager.PathsHaveNoQuery) (hinv : GateInv manager s) {invocation : Invocation H C W}
    (hmem : invocation ∈ s.invocations) : GateOf manager s invocation := by
  obtain ⟨hv, opened, hrespond⟩ := hinv.invocations invocation hmem
  unfold respond at hrespond
  cases hroute : manager.getRoutesFromPathAndMethod invocation.event.path
      invocation.event.method with
  | some found =>
    simp only [hroute, List.mem_map] at hrespond
    obtain ⟨handler, hhandler, heq⟩ := hrespond
    rw [← heq]
    exact gate_handler hpaths hinv.passed hv hhandler
  | none =>
    simp only [hroute] at hrespond
    cases hstream : manager.getStreamFromPath invocation.event.path with
    | none => simp [hstream] at hrespond
    | some stream =>
      cases opened with
      | false => simp [hstream] at hrespond
      | true =>
        have heq : invocation = .downStream invocation.event stream.streamHandler := by
          simpa [hstream] using hrespond
        rw [heq]
        exact gate_downStream hpaths hinv.passed hv hroute hstream

theorem respond_event {manager : RouteManager M H L C} {event : FinishedEvent W} {opened : Bool}
    {invocation : Invocation H C W} (h : invocation ∈ respond manager (some event) opened) :
    invocation.event = event := by
  unfold respond at h
  dsimp only at h
  split at h
  · obtain ⟨handler, -, rfl⟩ := List.mem_map.mp h
    rfl
  · split at h
    · split at h
      · rw [List.mem_singleton.mp h]
        rfl
      · cases h
    · cases h

/-! ## What the protocol does to the request table -/

/-- Steps of the protocol that write nothing into the request table and leave its
jobs alone. -/
def Quiet {ρ : Type} : Dispatch.Action ρ ω → Prop
  | .data _ _ | .startJob _ _ | .jobWrite _ _ | .jobVerdict _ _ | .buildRouteEvent _ _ => False
  | _ => True

theorem quiet_of_internal {ρ : Type} {a : Dispatch.Action ρ ω} (h : Internal a = true) : Quiet a := by
  cases a <;> simp_all [Internal, Quiet]

variable [DecidableEq ω]

theorem erase_some {κ ρ : Type} [DecidableEq κ] {table : PMap κ ρ} {id i : κ} {entry : ρ}
    (h : table.erase id i = some entry) : table i = some entry := by
  rw [PMap.erase_apply] at h
  split at h
  · cases h
  · exact h

theorem retain_some {ρ : Type} {table : PMap ReqId ρ} {p : ReqId → Bool} {i : ReqId} {entry : ρ}
    (h : table.retain p i = some entry) : table i = some entry := by
  rw [PMap.retain_apply] at h
  split at h
  · exact h
  · cases h

theorem dispatch_quiet {ρ : Type} {s t : Dispatch.State ρ ω} {a : Dispatch.Action ρ ω}
    (hq : Quiet a) (h : Dispatch.step s a = some t) :
    t.jobs = s.jobs ∧ ∀ id entry, t.table id = some entry → s.table id = some entry := by
  cases Dispatch.step_transition h with
  | data | started | wrote | judged | prepared | preparedEmpty => exact hq.elim
  | begun | created | finished | cancelled | cancelledConnection | received | unknown | picked
  | taken | rejected | missed | retried | dropped | requeued | ended => exact ⟨rfl, fun _ _ h => h⟩
  | discarded | receiverDiscarded | cleaned | discardedRejected => exact ⟨rfl, fun _ _ => erase_some⟩
  | @discardedConnection conn => exact ⟨rfl, fun _ _ => retain_some (p := fun id => id.1 != conn)⟩

/-! ## Steps -/

theorem Vouched.mono {passed passed' : List (MiddleWareJob M × List (Call M))} {id : ReqId}
    {path : String} {method : H3Method} (h : Vouched passed id path method)
    (hsub : passed ⊆ passed') : Vouched passed' id path method := by
  obtain ⟨p, hp, hrest⟩ := h
  exact ⟨p, hsub hp, hrest⟩

theorem JobSound.mono {manager : RouteManager M H L C} {received received' : List HeaderMessage}
    {job : MiddleWareJob M} (h : JobSound manager received job) (hsub : received ⊆ received') :
    JobSound manager received' job :=
  ⟨hsub h.received, h.work⟩

theorem JobPc.Sound.mono {manager : RouteManager M H L C} {received received' : List HeaderMessage}
    {passed passed' : List (MiddleWareJob M × List (Call M))} {pc : JobPc M}
    (h : pc.Sound manager received passed) (hreceived : received ⊆ received')
    (hpassed : passed ⊆ passed') : pc.Sound manager received' passed' := by
  cases pc with
  | queued message => exact hreceived h
  | waiting job => exact JobSound.mono h hreceived
  | calling job headers rest calls => exact ⟨h.1.mono hreceived, h.2⟩
  | checked job isSet headers | creating job headers =>
    obtain ⟨calls, hcalls⟩ := h
    exact ⟨calls, hpassed hcalls⟩
  | written | reported | rejecting | rejected | answering | sending => trivial

section Steps
variable {manager : RouteManager M H L C} {config : ServerConfig} {s t next : State M H L C W ω}
  {shared : Dispatch.State (PartialReq L W) ω}

omit [DecidableEq ω] in
/-- A step of the network thread, or of the protocol alone. -/
theorem GateInv.same_jobs (h : GateInv manager s) {network : NetworkPc}
    {verifier : InFlightStreamsPathVerifier} {received : List HeaderMessage}
    {queues : Finset QueueKey} {shutdowns : List ReqId}
    (hnetwork : ∀ message, network = .processing message → message ∈ received)
    (hreceived : s.received ⊆ received) (hjobs : shared.jobs = s.shared.jobs)
    (htable : ∀ id entry, shared.table id = some entry → EntryVouched s.passed id entry) :
    GateInv manager { s with shared, network, verifier, received, queues, shutdowns } where
  processing := hnetwork
  jobs number pc hpc := (h.jobs number pc hpc).mono hreceived (List.Subset.refl _)
  shared number pc hpc hj := (congrFun hjobs number).trans (h.shared number pc hpc hj)
  fresh number hn := ⟨(h.fresh number hn).1, (congrFun hjobs number).trans (h.fresh number hn).2⟩
  passed p hp := by
    obtain ⟨hsound, hcalled, hchained⟩ := h.passed p hp
    exact ⟨hsound.mono hreceived, hcalled, hchained⟩
  table := htable
  responders := h.responders
  invocations := h.invocations

theorem GateInv.quiet_table (h : GateInv manager s) {a : Dispatch.Action (PartialReq L W) ω}
    (hq : Quiet a) (hstep : Dispatch.step s.shared a = some shared) :
    ∀ id entry, shared.table id = some entry → EntryVouched s.passed id entry := by
  intro id entry hentry
  exact h.table id entry ((dispatch_quiet hq hstep).2 id entry hentry)

omit [DecidableEq ω] in
/-- A job moves on; its middlewares may have passed with it. -/
theorem GateInv.move_job (h : GateInv manager s) {number : Nat} {old pc : JobPc M}
    {passed : List (MiddleWareJob M × List (Call M))} {pool : FileWriterPool}
    {queues : Finset QueueKey} {verdicts : List (Nat × ReqId × Dispatch.Verdict)}
    (hold : s.jobs number = some old)
    (hpc : pc.Sound manager s.received passed) (hsub : s.passed ⊆ passed)
    (hpassed : ∀ p ∈ passed, Passed manager s.received p.1 p.2)
    (hjob : pc.Judged = false → shared.jobs number = some pc.message.id)
    (hjobs : ∀ i, i ≠ number → shared.jobs i = s.shared.jobs i)
    (htable : ∀ id entry, shared.table id = some entry → EntryVouched passed id entry) :
    GateInv manager { s.setJob number pc with shared, passed, pool, queues, verdicts } where
  processing := h.processing
  jobs i q hq := by
    simp only [State.setJob, PMap.insert_apply] at hq
    split at hq
    · obtain rfl := Option.some.inj hq
      exact hpc
    · exact (h.jobs i q hq).mono (List.Subset.refl _) hsub
  shared i q hq hj := by
    simp only [State.setJob, PMap.insert_apply] at hq
    split at hq
    · rename_i heq
      obtain rfl := Option.some.inj hq
      rw [heq]
      exact hjob hj
    · rename_i hne
      exact (hjobs i hne).trans (h.shared i q hq hj)
  fresh i hi := by
    have hne : i ≠ number := by
      rintro rfl
      rw [(h.fresh i hi).1] at hold
      cases hold
    refine ⟨?_, (hjobs i hne).trans (h.fresh i hi).2⟩
    simp only [State.setJob]
    rw [PMap.insert_of_ne _ _ hne]
    exact (h.fresh i hi).1
  passed := hpassed
  table := htable
  responders w responder event hw hevent := (h.responders w responder event hw hevent).mono hsub
  invocations invocation hmem := by
    obtain ⟨hv, hrespond⟩ := h.invocations invocation hmem
    exact ⟨hv.mono hsub, hrespond⟩

omit [DecidableEq ω] in
/-- A job that only moves on. -/
theorem GateInv.setJob (h : GateInv manager s) {number : Nat} {old pc : JobPc M}
    {queues : Finset QueueKey} (hold : s.jobs number = some old)
    (hmessage : pc.message = old.message) (hjudged : old.Judged = true → pc.Judged = true)
    (hpc : pc.Sound manager s.received s.passed) :
    GateInv manager { s.setJob number pc with queues } := by
  refine h.move_job hold hpc (List.Subset.refl _) h.passed (fun hj => ?_) (fun _ _ => rfl) h.table
  have hopen : old.Judged = false := by
    by_contra hjudgedOld
    exact absurd (hjudged (by simpa using hjudgedOld)) (by simp [hj])
  exact hmessage ▸ h.shared number old hold hopen

omit [DecidableEq ω] in
/-- A job ends, with its verdict or without one. -/
theorem GateInv.endJob (h : GateInv manager s) {number : Nat}
    {verdicts : List (Nat × ReqId × Dispatch.Verdict)} {errors : List (Nat × QueueKey × ErrorHeader)}
    (hjobs : ∀ i, i ≠ number → shared.jobs i = s.shared.jobs i)
    (hend : shared.jobs number = none ∨ shared.jobs number = s.shared.jobs number)
    (htable : shared.table = s.shared.table) :
    GateInv manager { s.endJob number with shared, verdicts, errors } where
  processing := h.processing
  jobs i q hq := h.jobs i q (erase_some (show s.jobs.erase number i = some q from hq))
  shared i q hq hj := by
    have hq : s.jobs.erase number i = some q := hq
    have hne : i ≠ number := by
      rintro rfl
      simp at hq
    exact (hjobs i hne).trans (h.shared i q (erase_some hq) hj)
  fresh i hi := by
    obtain ⟨hnone, hfree⟩ := h.fresh i hi
    refine ⟨?_, ?_⟩
    · simp only [State.endJob]
      rw [PMap.erase_apply, hnone, ite_self]
    · by_cases hne : i = number
      · subst hne
        exact hend.elim id fun hsame => hsame.trans hfree
      · exact (hjobs i hne).trans hfree
  passed := h.passed
  table id entry hentry := h.table id entry (htable ▸ hentry)
  responders := h.responders
  invocations := h.invocations

theorem jobVerdict_shared {number : Nat} {verdict : Dispatch.Verdict}
    (hstep : Dispatch.step s.shared (.jobVerdict number verdict) = some shared) :
    (∀ i, i ≠ number → shared.jobs i = s.shared.jobs i) ∧ shared.jobs number = none ∧
      shared.table = s.shared.table := by
  obtain ⟨id, -, rfl⟩ := Option.map_eq_some_iff.mp hstep
  exact ⟨fun i hne => PMap.erase_of_ne _ hne, PMap.erase_self _ _, rfl⟩

theorem jobWrite_shared {number : Nat} {id : ReqId}
    {write : Option (PartialReq L W) → Option (PartialReq L W)} (hid : s.shared.jobs number = some id)
    (hstep : Dispatch.step s.shared (.jobWrite number write) = some shared) :
    shared = s.shared.write id write := by
  simp only [Dispatch.step, hid, Option.map_some, Option.some.injEq] at hstep
  exact hstep.symm

omit [DecidableEq ω] in
theorem write_table {id i : ReqId} {table : Table L W} {entry : PartialReq L W}
    (h : (s.shared.write id (writeFrom table id)).table i = some entry) :
    (i = id ∧ table id = some entry) ∨ s.shared.table i = some entry := by
  by_cases hi : i = id
  · subst hi
    left
    simpa [Dispatch.State.write, writeFrom] using h
  · right
    simpa [Dispatch.State.write, Function.update_of_ne hi] using h

/-- The entry of a job that passed, as it writes it. -/
theorem vouched_of_job {passed : List (MiddleWareJob M × List (Call M))} {job : MiddleWareJob M}
    {calls : List (Call M)} (hmem : (job, calls) ∈ passed) {path : String}
    (hpath : path = job.path ∨ path = (ReqArgs.parseArgs job.path).1) :
    Vouched passed job.message.id path job.method :=
  ⟨_, hmem, rfl, rfl, hpath⟩

/-! ## What is written into the request table -/

/-- The write of a job: path and method are those of the job. -/
def WritesJob (job : MiddleWareJob M) (before after : Table L W) : Prop :=
  ∀ entry, after job.message.id = some entry → before job.message.id = some entry ∨
    entry.method = some job.method ∧
      (entry.path = some job.path ∨ entry.path = some (ReqArgs.parseArgs job.path).1)

theorem writesJob_complete (table : Table L W) (job : MiddleWareJob M)
    {completed : PartialReq.Completion L W} (hmethod : completed.method = job.method)
    (hpath : completed.path = job.path) :
    WritesJob job table (Table.completeRequestEntryInTable table job.message.id completed) := by
  intro entry hentry
  simp only [Table.completeRequestEntryInTable, PMap.modify_self, Option.map_eq_some_iff] at hentry
  obtain ⟨old, -, rfl⟩ := hentry
  exact .inr ⟨congrArg some hmethod, .inl (congrArg some hpath)⟩

theorem writesJob_found {table table' : Table L W} {job : MiddleWareJob M} {headers : List Header}
    {contentLength : Option Nat} (h : Table.addPartialRequestFound table job.message.id job.method
      headers job.path contentLength = some table') : WritesJob job table table' := by
  intro entry hentry
  obtain ⟨old, -, rfl⟩ := Option.map_eq_some_iff.mp h
  simp only [PMap.modify_self, Option.map_eq_some_iff] at hentry
  obtain ⟨old, -, rfl⟩ := hentry
  exact .inr ⟨rfl, .inl rfl⟩

theorem writesJob_absent (table : Table L W) (job : MiddleWareJob M)
    (attributes : Option DataManagement × Option L) (headers : List Header)
    (contentLength : Option Nat) (isEnd : Bool) (uuid : String) (creation : FileCreation W) :
    WritesJob job table (Table.addPartialRequestAbsent table config job.message.id job.method
      attributes.1 attributes.2 headers job.path contentLength isEnd uuid creation) := by
  intro entry hentry
  simp only [Table.addPartialRequestAbsent] at hentry
  cases hstorage : newEntryStorage config headers uuid creation attributes.1 with
  | none =>
    rw [hstorage] at hentry
    exact .inl hentry
  | some storage =>
    rw [hstorage] at hentry
    cases hold : table job.message.id with
    | some old =>
      simp only [hold, PMap.insert_self, Option.some.injEq] at hentry
      subst hentry
      exact .inr ⟨rfl, .inl rfl⟩
    | none =>
      simp only [hold, PMap.insert_self, Option.some.injEq] at hentry
      subst hentry
      exact .inr ⟨rfl, .inr rfl⟩

/-- A job that passed writes its entry. -/
theorem GateInv.write_job (h : GateInv manager s) {number : Nat} {old : JobPc M}
    {job : MiddleWareJob M} {calls : List (Call M)} {table : Table L W} {pool : FileWriterPool}
    (hold : s.jobs number = some old) (hmessage : job.message = old.message)
    (hopen : old.Judged = false) (hmem : (job, calls) ∈ s.passed)
    (hwrites : WritesJob job s.shared.table table)
    (hstep : Dispatch.step s.shared (.jobWrite number (writeFrom table job.message.id)) =
      some shared) :
    GateInv manager { s.setJob number (.written job) with shared, pool } := by
  have hid : s.shared.jobs number = some job.message.id := hmessage ▸ h.shared number old hold hopen
  obtain rfl := jobWrite_shared hid hstep
  refine h.move_job hold trivial (List.Subset.refl _) h.passed (fun _ => hid) (fun _ _ => rfl) ?_
  intro i entry hentry
  rcases write_table hentry with ⟨rfl, hwritten⟩ | hsame
  · rcases hwrites entry hwritten with hsame | ⟨hmethod, hpath⟩
    · exact h.table _ entry hsame
    · intro path method hp hm
      obtain rfl := Option.some.inj (hmethod.symm.trans hm)
      refine vouched_of_job hmem ?_
      rcases hpath with hpath | hpath
      · exact .inl (Option.some.inj (hp.symm.trans hpath))
      · exact .inr (Option.some.inj (hp.symm.trans hpath))
  · exact h.table i entry hsame

theorem EntryVouched.of_head {passed : List (MiddleWareJob M × List (Call M))} {id : ReqId}
    {entry entry' : PartialReq L W} (h : EntryVouched passed id entry)
    (hpath : entry'.path = entry.path) (hmethod : entry'.method = entry.method) :
    EntryVouched passed id entry' := by
  intro path method hp hm
  exact h path method (hpath ▸ hp) (hmethod ▸ hm)

theorem path_of_head {entry entry' : PartialReq L W} (h : entry'.head = entry.head) :
    entry'.path = entry.path ∧ entry'.method = entry.method :=
  ⟨congrArg Head.path h, congrArg Head.method h⟩

/-- A packet enters a request without path and method. -/
theorem setRequestInTable_vouched {passed : List (MiddleWareJob M × List (Call M))} {id : ReqId}
    {table : Table L W} (h : ∀ entry, table id = some entry → EntryVouched passed id entry)
    {entry : PartialReq L W} (hentry : Table.setRequestInTable table id id = some entry) :
    EntryVouched passed id entry := by
  simp only [Table.setRequestInTable, PMap.orInsert_self, Option.some.injEq] at hentry
  cases hid : table id with
  | none =>
    rw [hid] at hentry
    subst hentry
    intro path method hp
    cases hp
  | some old =>
    rw [hid] at hentry
    exact h entry (hid.trans (congrArg some hentry))

theorem writeBodyPacket_vouched {passed : List (MiddleWareJob M × List (Call M))} {id : ReqId}
    {table : Table L W} (h : ∀ entry, table id = some entry → EntryVouched passed id entry)
    {packet : Bytes} {entry : PartialReq L W}
    (hentry : (Table.writeBodyPacket table id packet false).1 id = some entry) :
    EntryVouched passed id entry := by
  unfold Table.writeBodyPacket at hentry
  cases hid : table id with
  | none =>
    rw [hid] at hentry
    exact h entry hentry
  | some old =>
    simp only [hid, PMap.insert_self, Option.some.injEq] at hentry
    subst hentry
    obtain ⟨hpath, hmethod⟩ := path_of_head (writeBodyPacket_head old packet false)
    exact (h old hid).of_head hpath hmethod

theorem toRouteEvent_ids {entry : PartialReq L W} {id : ReqId} {scid : Bytes}
    {event : FinishedEvent W} (h : (entry.toRouteEvent id scid).2.1 = some event) :
    event.id = id ∧ event.scid = scid := by
  unfold PartialReq.toRouteEvent at h
  cases hm : entry.method <;> cases hh : entry.headers <;> cases hp : entry.path <;>
    simp only [hm, hh, hp] at h <;> cases h
  exact ⟨rfl, rfl⟩

theorem toRouteEvent_path (entry : PartialReq L W) (id : ReqId) (scid : Bytes) :
    (entry.toRouteEvent id scid).1.path = entry.path ∧
      (entry.toRouteEvent id scid).1.method = entry.method := by
  unfold PartialReq.toRouteEvent
  cases hm : entry.method <;> cases hh : entry.headers <;> cases hp : entry.path <;>
    simp only [hm, hp, and_self]

/-- The event is the one of the entry, and the entry keeps its path and method. -/
theorem buildRouteEvent_vouched {passed : List (MiddleWareJob M × List (Call M))}
    {entry : PartialReq L W} {id : ReqId} {scid : Bytes} (h : EntryVouched passed id entry) :
    EntryVouched passed id (entry.buildRouteEvent id scid).1 ∧
      ∀ event, (entry.buildRouteEvent id scid).2.1 = some event →
        Vouched passed event.id event.path event.method := by
  obtain ⟨flushed, hhead, hentry, hevent⟩ := buildRouteEvent_flushed entry id scid
  obtain ⟨hpath, hmethod⟩ := path_of_head hhead
  obtain ⟨hpath', hmethod'⟩ := toRouteEvent_path flushed id scid
  rw [hentry, hevent]
  refine ⟨h.of_head (hpath'.trans hpath) (hmethod'.trans hmethod), fun event hev => ?_⟩
  have hfull := toRouteEvent_head flushed id scid event hev
  rw [hhead] at hfull
  rw [(toRouteEvent_ids hev).1]
  exact h event.path event.method (congrArg Head.path hfull).symm (congrArg Head.method hfull).symm

/-! ## The whole step -/

theorem GateInv.buildRouteEvent (h : GateInv manager s) {w : ω} {id : ReqId} {born taken : Nat}
    {scid : Bytes} (hw : s.shared.workers w = .taken id born taken)
    (hstep : Dispatch.step s.shared (.buildRouteEvent w fun entry =>
      (entry.buildRouteEvent id scid).1) = some shared) :
    GateInv manager { s with
      shared
      responders := Function.update s.responders w (some (Responder.ofEvent manager scid
        ((s.shared.table id).bind fun entry => (entry.buildRouteEvent id scid).2.1))) } := by
  have hshared : shared.jobs = s.shared.jobs ∧
      ∀ i entry, shared.table i = some entry → EntryVouched s.passed i entry := by
    cases Dispatch.step_transition hstep with
    | preparedEmpty => exact ⟨rfl, h.table⟩
    | @prepared _ _ _ _ old _ at_ found =>
      cases hw.symm.trans at_
      refine ⟨rfl, fun i entry hentry => ?_⟩
      have hentry : s.shared.table.insert id (old.buildRouteEvent id scid).1 i = some entry := hentry
      rw [PMap.insert_apply] at hentry
      split at hentry
      · rename_i heq
        subst heq
        cases hentry
        exact (buildRouteEvent_vouched (h.table _ old found)).1
      · exact h.table i entry hentry
  obtain ⟨hjobs, htable⟩ := hshared
  refine ⟨h.processing, h.jobs, fun n pc hpc hj => (congrFun hjobs n).trans (h.shared n pc hpc hj),
    fun n hn => ⟨(h.fresh n hn).1, (congrFun hjobs n).trans (h.fresh n hn).2⟩, h.passed, htable,
    fun v responder event hv hevent => ?_, h.invocations⟩
  simp only [Function.update_apply] at hv
  split at hv
  · cases hv
    obtain ⟨entry, hentry, hbuilt⟩ := Option.bind_eq_some_iff.mp hevent
    exact (buildRouteEvent_vouched (h.table id entry hentry)).2 event hbuilt
  · exact h.responders v responder event hv hevent

omit [DecidableEq ω] in
/-- A worker is left with no event, or with the one it had. -/
theorem GateInv.of_responders (h : GateInv manager s) {responders : ω → Option (Responder W)}
    {queues : Finset QueueKey} {invocations : List (Invocation H C W)}
    (hjobs : shared.jobs = s.shared.jobs)
    (htable : ∀ id entry, shared.table id = some entry → EntryVouched s.passed id entry)
    (hresponders : ∀ w responder, responders w = some responder → ∃ old,
      s.responders w = some old ∧ old.event = responder.event)
    (hinvocations : ∀ invocation ∈ invocations, invocation ∈ s.invocations ∨
      ∃ w responder opened, s.responders w = some responder ∧
        invocation ∈ respond manager responder.event opened) :
    GateInv manager { s with shared, responders, queues, invocations } := by
  refine ⟨h.processing, h.jobs, fun n pc hpc hj => (congrFun hjobs n).trans (h.shared n pc hpc hj),
    fun n hn => ⟨(h.fresh n hn).1, (congrFun hjobs n).trans (h.fresh n hn).2⟩, h.passed, htable,
    fun w responder event hw hevent => ?_, fun invocation hmem => ?_⟩
  · obtain ⟨old, hold, heq⟩ := hresponders w responder hw
    exact h.responders w old event hold (heq.trans hevent)
  · rcases hinvocations invocation hmem with hmem | ⟨w, responder, opened, hw, hmem⟩
    · exact h.invocations invocation hmem
    · cases hevent : responder.event with
      | none => simp [hevent, respond] at hmem
      | some event =>
        rw [hevent] at hmem
        have heq : invocation.event = event := respond_event hmem
        rw [heq]
        exact ⟨h.responders w responder event hw hevent, opened, hmem⟩

/-- A new section is queued under a fresh number. -/
theorem GateInv.startJob (h : GateInv manager s) {message : HeaderMessage}
    (hmem : message ∈ s.received)
    (hstep : Dispatch.step s.shared (.startJob s.sections message.id) = some shared) :
    GateInv manager { s.setJob s.sections (.queued message) with
      shared, network := .idle, sections := s.sections + 1 } := by
  obtain ⟨-, rfl⟩ := guarded_eq_some_iff.mp hstep
  refine ⟨nofun, fun i q hq => ?_, fun i q hq hj => ?_, fun i hi => ?_, h.passed, h.table,
    h.responders, h.invocations⟩
  · simp only [State.setJob, PMap.insert_apply] at hq
    split at hq
    · obtain rfl := Option.some.inj hq
      exact hmem
    · exact h.jobs i q hq
  · simp only [State.setJob, PMap.insert_apply] at hq ⊢
    split at hq
    · rename_i heq
      obtain rfl := Option.some.inj hq
      simp [heq, JobPc.message]
    · rename_i hne
      rw [if_neg hne]
      exact h.shared i q hq hj
  · have hlt : s.sections < i := hi
    obtain ⟨hnone, hfree⟩ := h.fresh i hlt.le
    simp only [State.setJob, PMap.insert_of_ne _ _ hlt.ne']
    exact ⟨hnone, hfree⟩

omit [DecidableEq ω] in
/-- The processor finds the route of a section. -/
theorem GateInv.route (h : GateInv manager s) {number : Nat} {message : HeaderMessage}
    {job : MiddleWareJob M} (hold : s.jobs number = some (.queued message))
    (hwork : headerWork manager message = .execute job) :
    GateInv manager (s.setJob number (.waiting job)) := by
  obtain ⟨hmessage, -⟩ := headerWork_execute hwork
  refine h.setJob hold hmessage (fun hj => hj) ⟨?_, hmessage ▸ hwork⟩
  rw [hmessage]
  exact h.jobs number _ hold

omit [DecidableEq ω] in
theorem GateInv.callMiddleware (h : GateInv manager s) {number : Nat} {job : MiddleWareJob M}
    {tempsHeaders : List Header} {middleware : M} {rest : List M} {calls : List (Call M)}
    (hold : s.jobs number = some (.calling job tempsHeaders (middleware :: rest) calls))
    (headers : List Header) : GateInv manager (s.setJob number
      (.calling job headers rest (calls ++ [⟨middleware, tempsHeaders, headers⟩]))) := by
  obtain ⟨hsound, hcalled, hchained⟩ := h.jobs number _ hold
  refine h.setJob hold rfl (fun hj => hj) ⟨hsound, ?_, hchained.snoc middleware headers⟩
  rw [← hcalled]
  simp

omit [DecidableEq ω] in
theorem GateInv.check (h : GateInv manager s) {number : Nat} {job : MiddleWareJob M}
    {headers : List Header} {calls : List (Call M)} {isSet : Bool}
    (hold : s.jobs number = some (.calling job headers [] calls)) :
    GateInv manager { s.setJob number (.checked job isSet headers) with
      passed := s.passed ++ [(job, calls)] } := by
  obtain ⟨hsound, hcalled, hchained⟩ := h.jobs number _ hold
  have hsub : s.passed ⊆ s.passed ++ [(job, calls)] := List.subset_append_left _ _
  refine h.move_job hold ⟨calls, by simp⟩ hsub (fun p hp => ?_)
    (fun _ => h.shared number (.calling job headers [] calls) hold rfl) (fun _ _ => rfl)
    fun id entry hentry => ?_
  · rcases List.mem_append.mp hp with hp | hp
    · exact h.passed p hp
    · rw [List.mem_singleton.mp hp]
      exact ⟨hsound, by simpa using hcalled, headers, hchained⟩
  · intro path method hpath hmethod
    exact (h.table id entry hentry path method hpath hmethod).mono hsub

theorem GateInv.sendRejected (h : GateInv manager s) {number : Nat} {message : HeaderMessage}
    {rejection : Rejection} {verdicts : List (Nat × ReqId × Dispatch.Verdict)}
    (hold : s.jobs number = some (.rejecting message rejection))
    (hstep : Dispatch.step s.shared (.jobVerdict number .rejected) = some shared) :
    GateInv manager { s.setJob number (.rejected message rejection) with shared, verdicts } := by
  obtain ⟨hjobs, -, htable⟩ := jobVerdict_shared hstep
  exact h.move_job hold trivial (List.Subset.refl _) h.passed nofun hjobs fun id entry hentry =>
    h.table id entry (htable ▸ hentry)

/-- A step of the network thread whose protocol step is quiet. -/
theorem GateInv.along (h : GateInv manager s) {a : Dispatch.Action (PartialReq L W) ω}
    {network : NetworkPc} {verifier : InFlightStreamsPathVerifier} {received : List HeaderMessage}
    {shutdowns : List ReqId} (hstep : Dispatch.step s.shared a = some shared) (hq : Quiet a)
    (hnetwork : ∀ message, network = .processing message → message ∈ received)
    (hreceived : s.received ⊆ received) :
    GateInv manager { s with shared, network, verifier, received, shutdowns } :=
  h.same_jobs hnetwork hreceived (dispatch_quiet hq hstep).1 (h.quiet_table hq hstep)

theorem GateInv.along_idle (h : GateInv manager s) {a : Dispatch.Action (PartialReq L W) ω}
    {verifier : InFlightStreamsPathVerifier} {received : List HeaderMessage} {shutdowns : List ReqId}
    (hstep : Dispatch.step s.shared a = some shared) (hq : Quiet a)
    (hreceived : s.received ⊆ received) :
    GateInv manager { s with shared, network := .idle, verifier, received, shutdowns } :=
  h.along hstep hq nofun hreceived

omit [DecidableEq ω] in
/-- The network thread writes the entry of a body packet. -/
theorem GateInv.packet (h : GateInv manager s) {id : ReqId} {table : Table L W} {network : NetworkPc}
    (hnetwork : ∀ message, network ≠ .processing message)
    (hwritten : ∀ entry, table id = some entry → EntryVouched s.passed id entry) :
    GateInv manager { s with shared := s.shared.write id (writeFrom table id), network } := by
  refine h.same_jobs (fun message hm => absurd hm (hnetwork message)) (List.Subset.refl _) rfl ?_
  intro i entry hentry
  rcases write_table hentry with ⟨rfl, hnew⟩ | hsame
  · exact hwritten entry hnew
  · exact h.table i entry hsame

/-- A worker that moves on has the event it had. -/
theorem update_event {w v : ω} {old new responder : Responder W}
    (hv : Function.update s.responders w (some new) v = some responder)
    (hold : s.responders w = some old) (hevent : old.event = new.event) :
    ∃ before, s.responders v = some before ∧ before.event = responder.event := by
  rw [Function.update_apply] at hv
  split at hv
  · rename_i heq
    cases hv
    exact ⟨old, heq ▸ hold, hevent⟩
  · exact ⟨responder, hv, rfl⟩

omit [DecidableEq ω] in
theorem gateInv_init : GateInv manager (init manager : State M H L C W ω) where
  processing _ h := by cases h
  jobs _ _ h := by cases h
  shared _ _ h := by cases h
  fresh _ _ := ⟨rfl, rfl⟩
  passed _ h := absurd h List.not_mem_nil
  table _ _ h := by cases h
  responders _ _ _ h := by cases h
  invocations _ h := absurd h List.not_mem_nil

theorem gateInv_step {form404 : Option ErrorForm} {a : Action L W ω} (h : GateInv manager s)
    (hstep : step config form404 manager s a = some next) : GateInv manager next := by
  cases step_transition hstep with
  | headersAdmitted _ _ protocol =>
    refine h.along protocol trivial (fun message hm => ?_) (List.subset_append_left _ _)
    cases hm
    simp
  | headersRefused _ _ protocol => exact h.along_idle protocol trivial (List.subset_append_left _ _)
  | sectionQueued processing protocol => exact h.startJob (h.processing _ processing) protocol
  | dataChecked =>
    refine h.same_jobs (fun message hm => ?_) (List.Subset.refl _) rfl h.table
    split at hm <;> cases hm
  | dataEntered => exact h.packet nofun fun _ => setRequestInTable_vouched (h.table _)
  | dataWritten => exact h.packet nofun fun _ => writeBodyPacket_vouched (h.table _)
  | finishedHandled _ _ protocol | finishedCancelled _ _ protocol | streamReset _ protocol
  | connectionClosed _ protocol => exact h.along_idle protocol trivial (List.Subset.refl _)
  | streamRemoved => exact h.same_jobs nofun (List.Subset.refl _) rfl h.table
  | routed held work => exact h.route held work
  | unrouted held => exact h.setJob held rfl (fun hj => hj) trivial
  | malformed => exact h.endJob (fun _ _ => rfl) (.inr rfl) rfl
  | jobTaken held => exact h.setJob held rfl (fun hj => hj) ⟨h.jobs _ _ held, rfl, rfl⟩
  | continued held => exact h.callMiddleware held _
  | aborted held | failed held => exact h.setJob held rfl (fun hj => hj) trivial
  | checked held => exact h.check held
  | completed held protocol =>
    obtain ⟨calls, hcalls⟩ := h.jobs _ _ held
    exact h.write_job held rfl rfl hcalls (writesJob_complete _ _ rfl rfl) protocol
  | found held found protocol =>
    obtain ⟨calls, hcalls⟩ := h.jobs _ _ held
    exact h.write_job held rfl rfl hcalls (writesJob_found found) protocol
  | absent held =>
    obtain ⟨calls, hcalls⟩ := h.jobs _ _ held
    exact h.setJob held rfl (fun hj => hj) ⟨calls, hcalls⟩
  | created held _ protocol =>
    obtain ⟨calls, hcalls⟩ := h.jobs _ _ held
    exact h.write_job held rfl rfl hcalls (writesJob_absent _ _ _ _ _ _ _ _) protocol
  | statusSent held => exact h.setJob held rfl (fun hj => hj) trivial
  | signalSent _ protocol =>
    obtain ⟨hjobs, hend, htable⟩ := jobVerdict_shared protocol
    exact h.endJob hjobs (.inl hend) htable
  | rejectedSent held protocol => exact h.sendRejected held protocol
  | errorQueueInserted held | sendersGot held => exact h.setJob held rfl (fun hj => hj) trivial
  | bodySenderMissing | errorSent | errorLost => exact h.endJob (fun _ _ => rfl) (.inr rfl) rfl
  | eventBuilt at_ protocol => exact h.buildRouteEvent at_ protocol
  | queueInserted _ held =>
    exact h.of_responders rfl h.table (fun _ _ hv => update_event hv held (insertQueue_event _).symm)
      fun _ => .inl
  | handlerCalled _ held =>
    refine h.of_responders rfl h.table (fun _ _ hv => update_event hv held rfl) fun invocation hmem => ?_
    rcases List.mem_append.mp hmem with hmem | hmem
    · exact .inl hmem
    · exact .inr ⟨_, _, _, held, hmem⟩
  | @preparationEnded w _ _ _ _ _ protocol =>
    have hq : Quiet (.endPreparation w : Dispatch.Action (PartialReq L W) ω) := trivial
    refine h.of_responders (dispatch_quiet hq protocol).1 (h.quiet_table hq protocol)
      (fun v responder hv => ?_) fun _ => .inl
    rw [Function.update_apply] at hv
    split at hv
    · cases hv
    · exact ⟨responder, hv, rfl⟩
  | along internal protocol =>
    exact h.along protocol (quiet_of_internal internal) h.processing (List.Subset.refl _)

end Steps

/-- Every handler and every downstream callback runs behind the middlewares of its
route or downstream, whatever happens in between. -/
theorem handlers_behind_middlewares {config : ServerConfig} {form404 : Option ErrorForm}
    {manager : RouteManager M H L C} {run : List (Action L W ω)} {s : State M H L C W ω}
    (hpaths : manager.PathsHaveNoQuery)
    (hrun : exec (step config form404 manager) (init manager) run = some s)
    (invocation : Invocation H C W) (hmem : invocation ∈ s.invocations) :
    GateOf manager s invocation :=
  gate_of_inv hpaths (exec_invariant (P := GateInv manager) gateInv_init
    (fun _ _ _ h hstep => gateInv_step h hstep) hrun) hmem

/-- A GET request whose middleware continued is finished and answered. -/
theorem handlers_behind_middlewares_answered : ∃ s, exec (step ⟨⟨[]⟩⟩ none guardedRoute)
      (init guardedRoute) ([.headers (section0 (getRequest "/a")), .processHeader] ++
        calledOnce 0 (.ok (.continued (getRequest "/a"))) ++ accepted 0 ++
        .finished ("c", 0) [1] :: respondedTo) = some s ∧
    ∃ invocation ∈ s.invocations, GateOf guardedRoute s invocation := by
  have hpaths : guardedRoute.PathsHaveNoQuery := by
    refine ⟨fun path hpath => ?_, nofun⟩
    have : path = "/a" := by simpa [guardedRoute, RouteTable.IsRoutePath] using hpath
    subst this
    decide
  have hrun : ((exec (step ⟨⟨[]⟩⟩ none guardedRoute) (init guardedRoute)
      ([.headers (section0 (getRequest "/a")), .processHeader] ++
        calledOnce 0 (.ok (.continued (getRequest "/a"))) ++ accepted 0 ++
        .finished ("c", 0) [1] :: respondedTo)).any fun s => !s.invocations.isEmpty) = true := by
    decide +kernel
  obtain ⟨s, hs, hcalled⟩ := Option.any_eq_true _ _ |>.mp hrun
  obtain ⟨invocation, hmem⟩ := List.exists_mem_of_ne_nil s.invocations (by simpa using hcalled)
  exact ⟨s, hs, invocation, hmem, handlers_behind_middlewares hpaths hs invocation hmem⟩

end FacesHttp3.Server
