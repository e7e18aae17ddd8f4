import FacesHttp3.Dispatch.Injections
import FacesHttp3.Server.Progress

/-! # No request is left behind

While an entry of the disposition table has no verdict, its section is on its way to
one; so the threads can always go on, and where they come to rest nothing is left of
the requests that were finished. -/

namespace FacesHttp3.Server
open FacesHttp3.Lib FacesHttp3.Lib.Exec FacesHttp3.Lib.History FacesHttp3.Request FacesHttp3.Router
open FacesHttp3.RequestsTable FacesHttp3.InFlight

variable {M H L C W ω : Type}

/-! ## What every run keeps -/

/-- The section that is processed and those in the queue were admitted. -/
structure AdmittedInv (s : State M H L C W ω) : Prop where
  processing : ∀ message, s.network = .processing message → message.Admitted = true
  queued : ∀ number message, s.jobs number = some (.queued message) → message.Admitted = true

/-- A job of the protocol is a section without verdict. -/
def JobsInv (s : State M H L C W ω) : Prop :=
  ∀ number id, s.shared.jobs number = some id → ∃ pc, s.jobs number = some pc ∧ pc.Judged = false

/-- A worker past its look at the request table has its responder. -/
def PreparingInv (s : State M H L C W ω) : Prop :=
  ∀ w id, Prepares (s.shared.workers w) id → (s.responders w).isSome = true

/-- The entry of the request has no verdict. -/
def Undecided {ρ : Type} (s : Dispatch.State ρ ω) (id : ReqId) : Prop :=
  ∃ slot, s.signal id = some slot ∧ slot.Decided = false

/-- A verdict of the request is on its way. -/
def Awaited {ρ : Type} (s : Dispatch.State ρ ω) (id : ReqId) : Prop :=
  (∃ number, s.jobs number = some id) ∨ ∃ verdict, (id, verdict) ∈ s.verdicts

def UndecidedInv (s : State M H L C W ω) : Prop :=
  ∀ id, Undecided s.shared id → Awaited s.shared id ∨
    ∃ message, s.network = .processing message ∧ message.id = id

section Steps
variable [DecidableEq ω] {manager : RouteManager M H L C} {config : ServerConfig}
  {form404 : Option ErrorForm} {s t : State M H L C W ω} {a : Action L W ω} {number : Nat} {w : ω}

theorem AdmittedInv.step (h : AdmittedInv s) (hstep : step config form404 manager s a = some t) :
    AdmittedInv t := by
  refine ⟨fun message hm => ?_, fun number message hqueued => ?_⟩
  · cases step_transition hstep with
    | headersAdmitted _ found =>
      cases hm
      exact Option.isSome_iff_exists.mpr ⟨_, found⟩
    | headersRefused | sectionQueued | dataEntered | dataWritten | finishedHandled | finishedCancelled
    | streamReset | connectionClosed | streamRemoved => cases hm
    | dataChecked =>
      dsimp only at hm
      split at hm <;> cases hm
    | _ => exact h.processing message hm
  · cases step_section hstep number with
    | elsewhere other jobs => exact h.queued number message (jobs.symm.trans hqueued)
    | admitted other network sections next jobs =>
      cases jobs.symm.trans hqueued
      exact h.processing message network
    | own own before life =>
      -- no step of a section leads back to the queue
      rw [hqueued] at life
      cases life

omit [DecidableEq ω] in
/-- The job of a section moves on. -/
theorem JobsInv.setJob (h : JobsInv s) {pc pc' : JobPc M} (held : s.jobs number = some pc)
    (hjobs : t.jobs = s.jobs.insert number pc') (hshared : t.shared.jobs = s.shared.jobs)
    (hjudged : pc.Judged = false → pc'.Judged = false) : JobsInv t := by
  intro i id hi
  obtain ⟨before, hbefore, hopen⟩ := h i id (congrFun hshared i ▸ hi)
  by_cases hin : i = number
  · subst hin
    cases held.symm.trans hbefore
    exact ⟨pc', by rw [hjobs, PMap.insert_self], hjudged hopen⟩
  · exact ⟨before, by rw [hjobs, PMap.insert_of_ne _ _ hin, hbefore], hopen⟩

omit [DecidableEq ω] in
/-- A section that had its verdict ends. -/
theorem JobsInv.endJob (h : JobsInv s) {pc : JobPc M} (held : s.jobs number = some pc)
    (hjobs : t.jobs = s.jobs.erase number) (hshared : t.shared.jobs = s.shared.jobs)
    (hjudged : pc.Judged = true) : JobsInv t := by
  intro i id hi
  obtain ⟨before, hbefore, hopen⟩ := h i id (congrFun hshared i ▸ hi)
  have hin : i ≠ number := by
    rintro rfl
    cases held.symm.trans hbefore
    cases hjudged.symm.trans hopen
  exact ⟨before, by rw [hjobs, PMap.erase_of_ne _ hin, hbefore], hopen⟩

/-- A section gets its verdict. -/
theorem JobsInv.judge (h : JobsInv s) {verdict : Dispatch.Verdict}
    (protocol : Dispatch.step s.shared (.jobVerdict number verdict) = some t.shared)
    (hjobs : ∀ i, i ≠ number → t.jobs i = s.jobs i) : JobsInv t := by
  obtain ⟨hothers, hnone, -⟩ := jobVerdict_shared protocol
  intro i id hi
  have hin : i ≠ number := by
    rintro rfl
    cases hnone.symm.trans hi
  rw [hjobs i hin]
  exact h i id (hothers i hin ▸ hi)

theorem jobWrite_jobs {ρ : Type} {s t : Dispatch.State ρ ω} {write : Option ρ → Option ρ}
    (h : Dispatch.step s (.jobWrite number write) = some t) : t.jobs = s.jobs := by
  obtain ⟨id, -, rfl⟩ := Option.map_eq_some_iff.mp h
  rfl

theorem JobsInv.step (h : JobsInv s) (hadmitted : AdmittedInv s)
    (hstep : step config form404 manager s a = some t) : JobsInv t := by
  -- the protocol moves without its jobs
  have hquiet : ∀ {action : Dispatch.Action (PartialReq L W) ω},
      Dispatch.step s.shared action = some t.shared → Quiet action → t.jobs = s.jobs → JobsInv t := by
    intro action protocol hq hjobs i id hi
    rw [hjobs]
    exact h i id (congrFun (dispatch_quiet hq protocol).1 i ▸ hi)
  cases step_transition hstep with
  | headersAdmitted _ _ protocol | headersRefused _ _ protocol | finishedHandled _ _ protocol
  | finishedCancelled _ _ protocol | streamReset _ protocol | connectionClosed _ protocol =>
    exact hquiet protocol trivial rfl
  | along internal protocol => exact hquiet protocol (quiet_of_internal internal) rfl
  | @sectionQueued message _ processing protocol =>
    obtain ⟨-, rfl⟩ := guarded_eq_some_iff.mp protocol
    intro i id hi
    by_cases hin : i = s.sections
    · subst hin
      exact ⟨.queued message, PMap.insert_self _ _ _, rfl⟩
    · have hold : s.shared.jobs i = some id := (PMap.insert_of_ne _ _ hin).symm.trans hi
      obtain ⟨pc, hpc, hopen⟩ := h i id hold
      exact ⟨pc, (PMap.insert_of_ne _ _ hin).trans hpc, hopen⟩
  | dataChecked | dataEntered | dataWritten | streamRemoved | queueInserted | handlerCalled => exact h
  | malformed held work =>
    exact absurd work (headerWork_ne_malformed (hadmitted.queued _ _ held))
  | routed held | unrouted held | jobTaken held | continued held | aborted held | failed held
  | checked held | absent held | statusSent held | errorQueueInserted held | sendersGot held =>
    exact h.setJob held rfl rfl fun hopen => hopen
  | completed held protocol | found held _ protocol | created held _ protocol =>
    exact h.setJob held rfl (jobWrite_jobs protocol) fun hopen => hopen
  | signalSent _ protocol => exact h.judge protocol fun _ hne => PMap.erase_of_ne _ hne
  | rejectedSent _ protocol => exact h.judge protocol fun _ hne => PMap.insert_of_ne _ _ hne
  | bodySenderMissing held | errorSent held | errorLost held => exact h.endJob held rfl rfl rfl
  | eventBuilt _ protocol =>
    cases Dispatch.step_transition protocol <;> exact h
  | preparationEnded _ _ _ protocol =>
    cases Dispatch.step_transition protocol
    exact h

/-- A response worker begins to prepare when it builds the event. -/
theorem prepares_new {ρ : Type} {s t : Dispatch.State ρ ω} {action : Dispatch.Action ρ ω} {id : ReqId}
    (hstep : Dispatch.step s action = some t) (h : Prepares (t.workers w) id) :
    Prepares (s.workers w) id ∨ ∃ take, action = .buildRouteEvent w take := by
  -- the step sets the worker `v` and leaves the others
  have hset : ∀ (v : ω) (pc : Dispatch.RegPc), t.workers = Function.update s.workers v pc →
      (w = v → Prepares pc id → Prepares (s.workers v) id) → Prepares (s.workers w) id := by
    intro v pc hworkers hpc
    rw [hworkers] at h
    by_cases hv : w = v
    · subst hv
      rw [Function.update_self] at h
      exact hpc rfl h
    · rwa [Function.update_of_ne hv] at h
  cases Dispatch.step_transition hstep with
  | begun | created | data | finished | cancelled | cancelledConnection | discarded
  | discardedConnection | started | wrote | judged | received | unknown | receiverDiscarded =>
    exact .inl h
  | picked | taken | rejected | missed | retried | dropped | requeued | ended | discardedRejected =>
    exact .inl (hset _ _ rfl (by simp [Prepares]))
  | @prepared v i born taken record take | @preparedEmpty v i born taken take =>
    by_cases hv : w = v
    · exact .inr ⟨take, by rw [hv]⟩
    · exact .inl (hset v _ rfl fun heq => absurd heq hv)
  | cleaned at_ => exact .inl (hset _ _ rfl (by simp [Prepares, at_]))

omit [DecidableEq ω] in
theorem makes_buildRouteEvent {v : ω} {take : PartialReq L W → PartialReq L W}
    (h : a.Makes (.buildRouteEvent v take)) : ∃ scid, a = .buildRouteEvent v scid := by
  cases a <;> simp_all [Action.Makes]
  · rename_i internal
    obtain ⟨rfl, hinternal⟩ := h
    cases hinternal

/-- The worker is at rest when its preparation is over. -/
theorem not_prepares_of_end {id : ReqId} (hstep : step config form404 manager s (.endPreparation w) = some t) :
    ¬ Prepares (t.shared.workers w) id := by
  cases step_transition hstep with
  | preparationEnded _ _ _ protocol =>
    cases Dispatch.step_transition protocol
    simp [Prepares]

theorem prepares_server_new {id : ReqId} (hstep : step config form404 manager s a = some t)
    (h : Prepares (t.shared.workers w) id) :
    Prepares (s.shared.workers w) id ∨ ∃ scid, a = .buildRouteEvent w scid := by
  cases step_shared hstep with
  | same shared => exact .inl (shared ▸ h)
  | packet _ shared =>
    rw [shared] at h
    exact .inl h
  | along makes step =>
    rcases prepares_new step h with hbefore | ⟨take, rfl⟩
    · exact .inl hbefore
    · exact .inr (makes_buildRouteEvent makes)

theorem PreparingInv.step (h : PreparingInv s) (hstep : step config form404 manager s a = some t) :
    PreparingInv t := by
  intro v id hprepares
  -- the responder of `v` stays, unless the step sets it
  have hkept : (∀ scid, a ≠ .buildRouteEvent v scid) → t.responders v = s.responders v →
      (t.responders v).isSome = true := by
    intro hbuilt hsame
    rcases prepares_server_new hstep hprepares with hbefore | ⟨scid, heq⟩
    · exact hsame ▸ h v id hbefore
    · exact absurd heq (hbuilt scid)
  cases step_respond hstep with
  | same other responders => exact hkept (other v).2 (congrFun responders v)
  | @built w scid _ _ _ action _ responders | @queued w _ action _ responders
  | @called w _ _ _ action _ _ _ responders =>
    by_cases hv : v = w
    · rw [responders, hv, Function.update_self]
      rfl
    · refine hkept ?_ (by rw [responders, Function.update_of_ne hv])
      simp [action, Ne.symm hv]
  | @ended w action responders =>
    by_cases hv : v = w
    · subst hv
      exact absurd hprepares (not_prepares_of_end (action ▸ hstep))
    · refine hkept ?_ (by rw [responders, Function.update_of_ne hv])
      simp [action]

/-! ### Entries without verdict -/

theorem undecided_step {ρ : Type} {s t : Dispatch.State ρ ω} {action : Dispatch.Action ρ ω} {id : ReqId}
    (hstep : Dispatch.step s action = some t) (h : Undecided t id) :
    (Undecided s id ∨ action = .begin id) ∧ (Awaited s id → Awaited t id) := by
  obtain ⟨slot, hslot, hopen⟩ := h
  cases Dispatch.step_transition hstep with
  | begun | data | finished | discarded | discardedConnection | wrote | receiverDiscarded | picked
  | missed | retried | dropped | requeued | prepared | preparedEmpty | cleaned | ended
  | discardedRejected => exact ⟨.inl ⟨slot, hslot, hopen⟩, fun hawaited => hawaited⟩
  | @created i =>
    refine ⟨?_, fun hawaited => hawaited⟩
    by_cases hid : id = i
    · exact .inr (by rw [hid])
    · exact .inl ⟨slot, (PMap.insert_of_ne _ _ hid).symm.trans hslot, hopen⟩
  | cancelled | taken | rejected => exact ⟨.inl ⟨slot, erase_some hslot, hopen⟩, fun hawaited => hawaited⟩
  | @cancelledConnection conn =>
    exact ⟨.inl ⟨slot, retain_some (p := fun id => id.1 != conn) hslot, hopen⟩, fun hawaited => hawaited⟩
  | @started job i _ free =>
    refine ⟨.inl ⟨slot, hslot, hopen⟩, fun hawaited => ?_⟩
    rcases hawaited with ⟨number, hnumber⟩ | hverdict
    · have hne : number ≠ job := by
        rintro rfl
        cases free.symm.trans hnumber
      exact .inl ⟨number, (PMap.insert_of_ne _ _ hne).trans hnumber⟩
    · exact .inr hverdict
  | @judged job i verdict held =>
    refine ⟨.inl ⟨slot, hslot, hopen⟩, fun hawaited => ?_⟩
    rcases hawaited with ⟨number, hnumber⟩ | ⟨old, hold⟩
    · by_cases hne : number = job
      · subst hne
        cases held.symm.trans hnumber
        exact .inr ⟨verdict, List.mem_append_right _ List.mem_cons_self⟩
      · exact .inl ⟨number, (PMap.erase_of_ne _ hne).trans hnumber⟩
    · exact .inr ⟨old, List.mem_append_left _ hold⟩
  | @received i verdict rest old free queued found =>
    have hid : id ≠ i := by
      rintro rfl
      cases (PMap.insert_self _ _ _).symm.trans hslot
      cases verdict <;> cases hopen
    refine ⟨.inl ⟨slot, (PMap.insert_of_ne _ _ hid).symm.trans hslot, hopen⟩, fun hawaited => ?_⟩
    rcases hawaited with hjob | ⟨old, hold⟩
    · exact .inl hjob
    · rw [queued, List.mem_cons] at hold
      rcases hold with heq | hold
      · cases heq
        exact absurd rfl hid
      · exact .inr ⟨old, hold⟩
  | @unknown i verdict rest free queued absent =>
    refine ⟨.inl ⟨slot, hslot, hopen⟩, fun hawaited => ?_⟩
    rcases hawaited with hjob | ⟨old, hold⟩
    · exact .inl hjob
    · rw [queued, List.mem_cons] at hold
      rcases hold with heq | hold
      · cases heq
        cases absent.symm.trans hslot
      · exact .inr ⟨old, hold⟩

/-- A section is processed until it is numbered. -/
theorem processing_step {message : HeaderMessage} (hm : s.network = .processing message)
    (hstep : step config form404 manager s a = some t) :
    t.network = .processing message ∨ a = .processHeader := by
  cases step_transition hstep with
  | headersAdmitted idle | headersRefused idle | dataChecked idle | finishedHandled idle
  | finishedCancelled idle | streamReset idle | connectionClosed idle | streamRemoved idle =>
    cases hm.symm.trans idle
  | dataEntered missing | dataWritten missing => cases hm.symm.trans missing
  | sectionQueued => exact .inr rfl
  | _ => exact .inl hm

theorem UndecidedInv.step (h : UndecidedInv s) (hstep : step config form404 manager s a = some t) :
    UndecidedInv t := by
  intro id hundecided
  -- the request had its entry before
  have hold : Undecided s.shared id → (Awaited s.shared id → Awaited t.shared id) →
      Awaited t.shared id ∨ ∃ message, t.network = .processing message ∧ message.id = id := by
    intro hbefore hawaited
    rcases h id hbefore with hwait | ⟨message, hm, hid⟩
    · exact .inl (hawaited hwait)
    · rcases processing_step hm hstep with hsame | rfl
      · exact .inr ⟨message, hsame, hid⟩
      · cases step_transition hstep with
        | sectionQueued processing protocol =>
          cases hm.symm.trans processing
          obtain ⟨-, rfl⟩ := guarded_eq_some_iff.mp protocol
          exact .inl (.inl ⟨s.sections, by rw [← hid]; exact PMap.insert_self _ _ _⟩)
  cases step_shared hstep with
  | same shared =>
    rw [shared] at hundecided
    exact hold hundecided fun hawaited => shared ▸ hawaited
  | packet _ shared =>
    rw [shared] at hundecided
    exact hold hundecided fun hawaited => shared ▸ hawaited
  | along makes step =>
    obtain ⟨hbefore | rfl, hawaited⟩ := undecided_step step hundecided
    · exact hold hbefore hawaited
    · -- only the headers of a request begin it
      cases a with
      | headers message =>
        have hid : id = message.id := by simpa [Action.Makes] using makes
        cases step_transition hstep with
        | headersAdmitted => exact .inr ⟨message, rfl, hid.symm⟩
        | headersRefused _ _ protocol =>
          obtain ⟨-, rfl⟩ := guarded_eq_some_iff.mp protocol
          obtain ⟨slot, hslot, -⟩ := hundecided
          rw [hid] at hslot
          cases (PMap.erase_self _ _).symm.trans hslot
      | protocol internal =>
        obtain ⟨rfl, hinternal⟩ := makes
        cases hinternal
      | _ => simp [Action.Makes] at makes

/-! ### Together -/

/-- What every state of a run of the server meets, as far as its progress depends on it. -/
structure Orderly (manager : RouteManager M H L C) (s : State M H L C W ω) : Prop where
  gate : GateInv manager s
  processing : ProcessingInv s
  admitted : AdmittedInv s
  jobs : JobsInv s
  responders : ResponderInv s
  preparing : PreparingInv s
  undecided : UndecidedInv s

end Steps

/-! ## Coming to rest -/

/-- What the threads get from outside: the answers of the middlewares, what the file
system and the identifier source give them, the packet that is being entered and the
connection a request is answered on. -/
structure Surroundings (M H L C W ω : Type) where
  answer : State M H L C W ω → Nat → Answer
  uuid : State M H L C W ω → Nat → String
  file : State M H L C W ω → Nat → Option W
  packet : State M H L C W ω → Bytes
  scid : State M H L C W ω → ω → Bytes

/-- The step is one of the threads' own, with what the surroundings give it. -/
def Surroundings.Gives (env : Surroundings M H L C W ω) (s : State M H L C W ω) : Action L W ω → Prop
  | .dataWrite packet => packet = env.packet s
  | .callMiddleware number answer => answer = env.answer s number
  | .complete number uuid file | .create number uuid file =>
    uuid = env.uuid s number ∧ file = env.file s number
  | .buildRouteEvent w scid => scid = env.scid s w
  | a => a.Delivers = false

section Rest
variable [Fintype ω] [DecidableEq ω] {manager : RouteManager M H L C} {config : ServerConfig}
  {form404 : Option ErrorForm} {s t : State M H L C W ω} {a : Action L W ω}
  {env : Surroundings M H L C W ω}

omit [Fintype ω] [DecidableEq ω] in
theorem Surroundings.Gives.delivers (h : env.Gives s a) : a.Delivers = false := by
  cases a <;> first | rfl | exact h

omit [Fintype ω] [DecidableEq ω] in
/-- Without sections and verdicts every entry has its verdict. -/
theorem Orderly.allDecided (h : Orderly manager s) (hnetwork : s.network = .idle)
    (hjobs : ∀ number, s.jobs number = none) (hverdicts : s.shared.verdicts = []) :
    Dispatch.AllDecided s.shared := by
  intro id slot hslot
  by_contra hopen
  rcases h.undecided id ⟨slot, hslot, by simpa using hopen⟩ with hawaited | ⟨message, hm, -⟩
  · rcases hawaited with ⟨number, hnumber⟩ | ⟨verdict, hverdict⟩
    · obtain ⟨pc, hpc, -⟩ := h.jobs number id hnumber
      cases (hjobs number).symm.trans hpc
    · simp [hverdicts] at hverdict
  · cases hnetwork.symm.trans hm

omit [Fintype ω] in
/-- A preparation goes on with the queue, the call or its end. -/
theorem Orderly.responder_enabled (config : ServerConfig) (form404 : Option ErrorForm)
    (h : Orderly manager s) {w : ω} {id : ReqId} (hpc : s.shared.workers w = .responding id) :
    (step config form404 manager s (.insertQueue w)).isSome = true ∨
      (step config form404 manager s (.callHandler w)).isSome = true ∨
      (step config form404 manager s (.endPreparation w)).isSome = true := by
  obtain ⟨⟨scid, event, hasQueue, called, again⟩, hresponder⟩ :=
    Option.isSome_iff_exists.mp (h.preparing w id (.inr hpc))
  cases called with
  | false =>
    cases hasQueue with
    | false => exact .inl (by simp [step, hpc, hresponder, Responder.Inserts, guarded])
    | true => exact .inr (.inl (by simp [step, hpc, hresponder, guarded]))
  | true =>
    cases again with
    | true => exact .inl (by simp [step, hpc, hresponder, Responder.Inserts, guarded])
    | false => exact .inr (.inr (by simp [step, State.along, Dispatch.step, hpc, hresponder]))

end Rest

end FacesHttp3.Server
