import FacesHttp3.Dispatch.Accounting
import FacesHttp3.Server.Settling

/-! # Every end of a request is answered once

A request that a response worker takes is prepared for its handler exactly once. With
the injections of the protocol this accounts for the ends of a stream: each of them
is answered by calls of the user's code or its preparation finds nothing to call, or
its injection was used up on a rejected request or on one without entry. -/

namespace FacesHttp3.Server
open FacesHttp3.Lib FacesHttp3.Lib.Exec FacesHttp3.Lib.History FacesHttp3.Request FacesHttp3.Router
open FacesHttp3.RequestsTable FacesHttp3.InFlight

variable {M H L C W ω : Type}

/-- The calls of the user's code that a step makes. -/
def callsMade (manager : RouteManager M H L C) (s : State M H L C W ω) :
    Action L W ω → List (Invocation H C W)
  | .callHandler w =>
    match s.shared.workers w, s.responders w with
    | .responding id, some responder =>
      respond manager responder.event (decide ((id.2, responder.scid) ∈ s.queues))
    | _, _ => []
  | _ => []

/-- A response worker comes to the call of the handlers of the request. -/
def comesToCall (id : ReqId) (s : State M H L C W ω) : Action L W ω → Bool
  | .callHandler w => s.shared.workers w = .responding id
  | _ => false

/-- It has nothing to call: no event was built, there is no handler for it, or the
opening of a downstream could not be queued. -/
def sparesFor (manager : RouteManager M H L C) (id : ReqId) (s : State M H L C W ω) (a : Action L W ω) :
    Bool :=
  comesToCall id s a && (callsMade manager s a).isEmpty

/-- The calls of the user's code for a request are `answers`, each of them all the
calls for one of its events. -/
structure Answered (manager : RouteManager M H L C) (s : State M H L C W ω) (id : ReqId)
    (answers : List (List (Invocation H C W))) : Prop where
  calls : s.invocationsOf id = answers.flatten
  made : ∀ calls ∈ answers, calls ≠ [] ∧
    ∃ event opened, event.id = id ∧ calls = respond manager (some event) opened

/-- How many workers took the request and have not called its handlers yet. -/
def State.dispatching [Fintype ω] (s : State M H L C W ω) (id : ReqId) : Nat :=
  ∑ w, (decide (Dispatches s w id)).toNat

section Steps
variable [DecidableEq ω] {manager : RouteManager M H L C} {config : ServerConfig}
  {form404 : Option ErrorForm} {s t : State M H L C W ω} {a : Action L W ω} {id : ReqId}

/-- What a step of the protocol does to the requests its workers answer. -/
inductive AnswersStep {ρ : Type} (s t : Dispatch.State ρ ω) (action : Dispatch.Action ρ ω) : Prop
  | same (end_ : ∀ w, action ≠ .endPreparation w)
      (answers : ∀ w, Answers (t.workers w) = Answers (s.workers w))
      (takes : ∀ id, t.log.countP (Dispatch.Event.Takes id) = s.log.countP (Dispatch.Event.Takes id))
  | taken {w : ω} {id : ReqId} {born : Nat} (action : action = .removeIf w)
      (worker : s.workers w = .holding id) (answers : Answers (t.workers w) = some id)
      (others : ∀ v, v ≠ w → t.workers v = s.workers v) (log : t.log = s.log ++ [.taken id born w])
  | ended {w : ω} (action : action = .endPreparation w) (answers : Answers (t.workers w) = none)
      (others : ∀ v, v ≠ w → t.workers v = s.workers v) (log : t.log = s.log)

theorem answersStep {ρ : Type} {s t : Dispatch.State ρ ω} {action : Dispatch.Action ρ ω}
    (h : Dispatch.step s action = some t) : AnswersStep s t action := by
  -- the step sets the worker `v`, which answers what it answered before
  have hset : ∀ (v : ω) (pc : Dispatch.RegPc), t.workers = (s.setWorker v pc).workers →
      Answers pc = Answers (s.workers v) → ∀ w, Answers (t.workers w) = Answers (s.workers w) := by
    intro v pc hworkers hpc w
    rw [hworkers, Dispatch.setWorker_workers]
    split
    · rename_i hv
      rw [hv, hpc]
    · rfl
  cases Dispatch.step_transition h with
  | begun | data | discarded | discardedConnection | started | wrote | judged | receiverDiscarded =>
    exact .same (by simp) (fun _ => rfl) fun _ => rfl
  | created | finished | cancelled | cancelledConnection | received | unknown =>
    refine .same (by simp) (fun _ => rfl) fun _ => ?_
    simp [Dispatch.State.record, List.countP_append, Dispatch.Event.Takes]
  | @picked v i rest at_ => exact .same (by simp) (hset v _ rfl (by rw [at_]; rfl)) fun _ => rfl
  | @missed v i at_ => exact .same (by simp) (hset v _ rfl (by rw [at_]; rfl)) fun _ => rfl
  | @retried v i at_ => exact .same (by simp) (hset v _ rfl (by rw [at_]; rfl)) fun _ => rfl
  | @requeued v i at_ => exact .same (by simp) (hset v _ rfl (by rw [at_]; rfl)) fun _ => rfl
  | @cleaned v i at_ => exact .same (by simp) (hset v _ rfl (by rw [at_]; rfl)) fun _ => rfl
  | @discardedRejected v i at_ => exact .same (by simp) (hset v _ rfl (by rw [at_]; rfl)) fun _ => rfl
  | @rejected v i born at_ =>
    refine .same (by simp) (hset v (.rejecting i) rfl (by rw [at_]; rfl)) fun _ => ?_
    simp [Dispatch.State.record, Dispatch.State.setWorker, List.countP_append, Dispatch.Event.Takes]
  | @dropped v i at_ =>
    refine .same (by simp) (hset v .idle rfl (by rw [at_]; rfl)) fun _ => ?_
    simp [Dispatch.State.record, Dispatch.State.setWorker, List.countP_append, Dispatch.Event.Takes]
  | @prepared v i born taken record take at_ =>
    refine .same (by simp) (hset v (.cleaning i) rfl (by rw [at_]; rfl)) fun _ => ?_
    simp [Dispatch.State.record, Dispatch.State.setWorker, List.countP_append, Dispatch.Event.Takes]
  | @preparedEmpty v i born taken take at_ =>
    refine .same (by simp) (hset v (.responding i) rfl (by rw [at_]; rfl)) fun _ => ?_
    simp [Dispatch.State.record, Dispatch.State.setWorker, List.countP_append, Dispatch.Event.Takes]
  | @taken v i born at_ =>
    refine .taken rfl at_ (by simp [Dispatch.State.record, Answers]) (fun w hw => ?_) rfl
    simp [Dispatch.State.record, hw]
  | @ended v i at_ =>
    refine .ended rfl (by simp [Answers]) (fun w hw => ?_) rfl
    simp [hw]

/-- What a step of the server does to the requests its response workers answer. -/
theorem answers_server (hstep : step config form404 manager s a = some t)
    (hend : ∀ w, a ≠ .endPreparation w) :
    ((∀ w, Answers (t.shared.workers w) = Answers (s.shared.workers w)) ∧
      ∀ id, t.shared.log.countP (Dispatch.Event.Takes id) =
        s.shared.log.countP (Dispatch.Event.Takes id)) ∨
      ∃ w id born, a = .protocol (.removeIf w) ∧ s.shared.workers w = .holding id ∧
        Answers (t.shared.workers w) = some id ∧
        (∀ v, v ≠ w → t.shared.workers v = s.shared.workers v) ∧
        t.shared.log = s.shared.log ++ [.taken id born w] := by
  cases step_shared hstep with
  | same shared => exact .inl ⟨fun _ => by rw [shared], fun _ => by rw [shared]⟩
  | packet _ shared => exact .inl ⟨fun _ => by rw [shared]; rfl, fun _ => by rw [shared]; rfl⟩
  | along makes step =>
    cases answersStep step with
    | same _ answers takes => exact .inl ⟨answers, takes⟩
    | @taken w i born action worker answers others log =>
      exact .inr ⟨w, i, born, makes_removeIf (action ▸ makes), worker, answers, others, log⟩
    | @ended w action => exact absurd (makes_endPreparation (action ▸ makes)) (hend w)

section Sums
variable [Fintype ω]

omit [DecidableEq ω] in
theorem dispatching_same (h : ∀ w, Dispatches t w id ↔ Dispatches s w id) :
    t.dispatching id = s.dispatching id := by
  unfold State.dispatching
  exact Finset.sum_congr rfl fun w _ => by simp only [h w]

theorem dispatching_one (w : ω) (h : ∀ v, v ≠ w → (Dispatches t v id ↔ Dispatches s v id)) :
    t.dispatching id + (decide (Dispatches s w id)).toNat =
      s.dispatching id + (decide (Dispatches t w id)).toNat :=
  sum_of_agree (f := fun v => (decide (Dispatches t v id)).toNat)
    (g := fun v => (decide (Dispatches s v id)).toNat) w fun v hv => by simp only [h v hv]

omit [Fintype ω] [DecidableEq ω] in
/-- A worker with a responder is past its look at the request table. -/
theorem no_responder {w : ω} {pc : Dispatch.RegPc} (h : ResponderInv s) (hpc : s.shared.workers w = pc)
    (hprepares : ∀ id, ¬ Prepares pc id) : s.responders w = none := by
  cases hresponder : s.responders w with
  | none => rfl
  | some responder =>
    obtain ⟨i, hi, -⟩ := h w responder hresponder
    exact absurd (hpc ▸ hi) (hprepares i)

omit [Fintype ω] in
/-- A preparation ends once its handlers were called. -/
theorem endPreparation_spec {w : ω} (hstep : step config form404 manager s (.endPreparation w) = some t) :
    (s.responders w).any Responder.called = true ∧ t.responders w = none ∧
      (∀ v, v ≠ w → t.responders v = s.responders v ∧ t.shared.workers v = s.shared.workers v) ∧
      Answers (t.shared.workers w) = none ∧ t.shared.log = s.shared.log := by
  cases step_transition hstep with
  | preparationEnded held called _ protocol =>
    cases Dispatch.step_transition protocol
    refine ⟨by simp [held, called], by simp, fun v hv => ⟨?_, ?_⟩, by simp [Answers], rfl⟩
    · exact Function.update_of_ne hv _ _
    · rw [Dispatch.setWorker_workers, if_neg hv]

/-- A worker that ends a preparation has called its handlers. -/
theorem dispatching_ended (id : ReqId) {w : ω}
    (hstep : step config form404 manager s (.endPreparation w) = some t) :
    t.dispatching id = s.dispatching id := by
  obtain ⟨hcalled, hnone, hothers, hanswers, -⟩ := endPreparation_spec hstep
  refine dispatching_same fun v => ?_
  by_cases hv : v = w
  · subst hv
    simp [Dispatches, hanswers, hcalled]
  · rw [Dispatches, (hothers v hv).1, (hothers v hv).2, Dispatches]

/-- A worker that takes the entry of a request has no responder yet. -/
theorem dispatching_taken (id : ReqId) (h : ResponderInv s) {w : ω} {i : ReqId}
    (hstep : step config form404 manager s (.protocol (.removeIf w)) = some t)
    (hholding : s.shared.workers w = .holding i) (hready : Answers (t.shared.workers w) = some i)
    (hothers : ∀ v, v ≠ w → t.shared.workers v = s.shared.workers v) :
    t.dispatching id = s.dispatching id + (decide (i = id)).toNat := by
  have hresponders : t.responders = s.responders := by
    cases step_transition hstep
    rfl
  have hnone := no_responder h hholding (by simp [Prepares])
  have hone := dispatching_one w fun v hv =>
    show Dispatches t v id ↔ Dispatches s v id by
      simp only [Dispatches, hothers v hv, hresponders]
  have hold : ¬ Dispatches s w id := by simp [Dispatches, hholding, Answers]
  have hnew : Dispatches t w id ↔ i = id := by simp [Dispatches, hready, hresponders, hnone]
  simpa only [hold, hnew, decide_false, Bool.toNat_false, Nat.add_zero] using hone

/-- While who answers what stays, only the call of the handlers counts. -/
theorem dispatching_respond (id : ReqId) (h : ResponderInv s)
    (hstep : step config form404 manager s a = some t) (hend : ∀ w, a ≠ .endPreparation w)
    (hanswers : ∀ w, Answers (t.shared.workers w) = Answers (s.shared.workers w)) :
    t.dispatching id + (comesToCall id s a).toNat = s.dispatching id := by
  -- at most one responder changes
  have hother : ∀ {w : ω} {responder : Option (Responder W)},
      t.responders = Function.update s.responders w responder →
      ∀ v, v ≠ w → (Dispatches t v id ↔ Dispatches s v id) := by
    intro w responder hresponders v hv
    rw [Dispatches, hanswers, hresponders, Function.update_of_ne hv, Dispatches]
  have hquiet : (∀ w, a ≠ .callHandler w) → (∀ v, Dispatches t v id ↔ Dispatches s v id) →
      t.dispatching id + (comesToCall id s a).toNat = s.dispatching id := by
    intro hne hsame
    have hcalls : comesToCall id s a = false := by
      cases a <;> first | rfl | exact absurd rfl (hne _)
    rw [hcalls, dispatching_same hsame]
    rfl
  cases step_respond hstep with
  | same other responders =>
    refine hquiet ?_ fun v => by rw [Dispatches, hanswers, responders, Dispatches]
    rintro w rfl
    cases step_transition hstep with
    | handlerCalled at_ held queue fresh =>
      have hsame := congrFun responders w
      simp only [Function.update_self, held, Option.some.injEq] at hsame
      rw [← hsame] at fresh
      cases fresh
  | @built w scid i born taken action worker responders =>
    have hnone := no_responder h worker (by simp [Prepares])
    refine hquiet (by simp [action]) fun v => ?_
    by_cases hv : v = w
    · subst hv
      simp [Dispatches, hanswers, responders, hnone, Responder.ofEvent]
    · exact hother responders v hv
  | @queued w responder action before responders =>
    refine hquiet (by simp [action]) fun v => ?_
    by_cases hv : v = w
    · subst hv
      simp only [Dispatches, hanswers, responders, before, Function.update_self, Option.any_some,
        insertQueue_called]
    · exact hother responders v hv
  | @called w i responder opened action worker before fresh responders =>
    have hone := dispatching_one w (hother responders)
    have hold : Dispatches s w id ↔ i = id := by simp [Dispatches, worker, before, fresh, Answers]
    have hnew : ¬ Dispatches t w id := by simp [Dispatches, responders]
    have hcalls : comesToCall id s a = decide (i = id) := by simp [action, comesToCall, worker]
    simp only [hold, hnew, decide_false, Bool.toNat_false] at hone
    rw [hcalls]
    omega
  | @ended w action => exact absurd action (hend w)

/-- Each `Ready` that is taken comes once to the call of the handlers. -/
theorem dispatching_step (id : ReqId) (h : ResponderInv s)
    (hstep : step config form404 manager s a = some t) :
    t.dispatching id + (comesToCall id s a).toNat + s.shared.log.countP (Dispatch.Event.Takes id) =
      s.dispatching id + t.shared.log.countP (Dispatch.Event.Takes id) := by
  by_cases hend : ∃ w, a = .endPreparation w
  · obtain ⟨w, rfl⟩ := hend
    obtain ⟨-, -, -, -, hlog⟩ := endPreparation_spec hstep
    simp [dispatching_ended id hstep, hlog, comesToCall]
  have hend : ∀ w, a ≠ .endPreparation w := fun w hw => hend ⟨w, hw⟩
  rcases answers_server hstep hend with
    ⟨hanswers, htakes⟩ | ⟨w, i, born, rfl, hholding, hready, hothers, hlog⟩
  · rw [htakes, dispatching_respond id h hstep hend hanswers]
  · have hcount : t.shared.log.countP (Dispatch.Event.Takes id) =
        s.shared.log.countP (Dispatch.Event.Takes id) + (decide (i = id)).toNat := by
      rw [hlog, List.countP_append, List.countP_singleton]
      by_cases hid : i = id <;> simp [Dispatch.Event.Takes, hid]
    have htaken := dispatching_taken id h hstep hholding hready hothers
    simp only [hcount, htaken, comesToCall, Bool.toNat_false]
    omega

/-! ### The calls -/

omit [Fintype ω] [DecidableEq ω] in
theorem comesToCall_eq_true (h : comesToCall id s a = true) :
    ∃ w, a = .callHandler w ∧ s.shared.workers w = .responding id := by
  cases a with
  | callHandler w => exact ⟨w, rfl, of_decide_eq_true h⟩
  | _ => cases h

omit [Fintype ω] in
theorem invocations_step (hstep : step config form404 manager s a = some t) :
    t.invocations = s.invocations ++ callsMade manager s a := by
  cases step_transition hstep with
  | handlerCalled at_ held => simp [callsMade, at_, held]
  | _ => exact (List.append_nil _).symm

omit [Fintype ω] [DecidableEq ω] in
/-- The calls are for the event of the request that is answered. -/
theorem callsMade_spec {w : ω} (h : ResponderInv s) (hworker : s.shared.workers w = .responding id)
    (hcalls : callsMade manager s (.callHandler w) ≠ []) : ∃ event opened, event.id = id ∧
      callsMade manager s (.callHandler w) = respond manager (some event) opened := by
  cases hresponder : s.responders w with
  | none => simp [callsMade, hworker, hresponder] at hcalls
  | some responder =>
    obtain ⟨i, hprepares, hevent⟩ := h w responder hresponder
    obtain rfl : i = id := by
      rcases hprepares with hprepares | hprepares <;> cases hworker.symm.trans hprepares
      rfl
    simp only [callsMade, hworker, hresponder] at hcalls ⊢
    cases hsome : responder.event with
    | none => simp [hsome, respond] at hcalls
    | some event => exact ⟨event, _, hevent event hsome, rfl⟩

omit [Fintype ω] in
theorem invocationsOf_snoc (hstep : step config form404 manager s a = some t) :
    t.invocationsOf id = s.invocationsOf id ++
      (callsMade manager s a).filter fun invocation => invocation.event.id = id := by
  rw [State.invocationsOf, invocations_step hstep, List.filter_append, State.invocationsOf]

omit [Fintype ω] in
theorem Answered.quiet {answers : List (List (Invocation H C W))} (h : Answered manager s id answers)
    (hnone : (callsMade manager s a).filter (fun invocation => invocation.event.id = id) = [])
    (hstep : Server.step config form404 manager s a = some t) : Answered manager t id answers :=
  ⟨by rw [invocationsOf_snoc hstep, hnone, List.append_nil, h.calls], h.made⟩

omit [Fintype ω] in
/-- Only the call for the request itself adds to its calls. -/
theorem Answered.other {answers : List (List (Invocation H C W))} (h : Answered manager s id answers)
    (hresponders : ResponderInv s) (hcomes : comesToCall id s a = false)
    (hstep : Server.step config form404 manager s a = some t) : Answered manager t id answers := by
  refine h.quiet (List.filter_eq_nil_iff.mpr fun invocation hmem hid => ?_) hstep
  cases a with
  | callHandler w =>
    cases hworker : s.shared.workers w with
    | responding i =>
      obtain ⟨event, opened, hevent, hcalls⟩ :=
        callsMade_spec hresponders hworker (List.ne_nil_of_mem hmem)
      have hi : invocation.event.id = i := by
        rw [hcalls] at hmem
        rw [respond_event hmem, hevent]
      have hne : i ≠ id := by simpa [comesToCall, hworker] using hcomes
      exact hne (hi.symm.trans (of_decide_eq_true hid))
    | _ => simp [callsMade, hworker] at hmem
  | _ => cases hmem

omit [Fintype ω] in
/-- The calls for one event are one more answer. -/
theorem Answered.called {answers : List (List (Invocation H C W))} (h : Answered manager s id answers)
    (hresponders : ResponderInv s) (hcomes : comesToCall id s a = true)
    (hcalls : callsMade manager s a ≠ [])
    (hstep : Server.step config form404 manager s a = some t) :
    Answered manager t id (answers ++ [callsMade manager s a]) := by
  obtain ⟨w, rfl, hworker⟩ := comesToCall_eq_true hcomes
  obtain ⟨event, opened, hevent, hmade⟩ := callsMade_spec hresponders hworker hcalls
  have hall : (callsMade manager s (.callHandler w)).filter (fun invocation => invocation.event.id = id) =
      callsMade manager s (.callHandler w) := by
    refine List.filter_eq_self.mpr fun invocation hmem => ?_
    rw [hmade] at hmem
    simp [respond_event hmem, hevent]
  refine ⟨?_, fun calls hmem => ?_⟩
  · rw [invocationsOf_snoc hstep, hall, h.calls, List.flatten_append, List.flatten_singleton]
  · rcases List.mem_append.mp hmem with hold | hnew
    · exact h.made calls hold
    · rw [List.mem_singleton.mp hnew]
      exact ⟨hcalls, event, opened, hevent, hmade⟩

/-- The answers made for a request, the preparations without a call and the workers
about to make one are as many as the workers that took the request. -/
def Called (config : ServerConfig) (form404 : Option ErrorForm) (manager : RouteManager M H L C)
    (past : List (Action L W ω)) (s : State M H L C W ω) (id : ReqId) : Prop :=
  ∃ answers, Answered manager s id answers ∧
    answers.length + tally (step config form404 manager) (sparesFor manager id) (init manager) past +
      s.dispatching id = s.shared.log.countP (Dispatch.Event.Takes id)

theorem Called.step {past : List (Action L W ω)} (h : Called config form404 manager past s id)
    (hresponders : ResponderInv s)
    (run : exec (Server.step config form404 manager) (init manager) past = some s)
    (hstep : Server.step config form404 manager s a = some t) :
    Called config form404 manager (past ++ [a]) t id := by
  obtain ⟨answers, hanswered, hcount⟩ := h
  have hbalance := dispatching_step id hresponders hstep
  have htally := tally_snoc (p := sparesFor manager id) (a := a) run
  cases hcomes : comesToCall id s a with
  | false =>
    refine ⟨answers, hanswered.other hresponders hcomes hstep, ?_⟩
    rw [hcomes, Bool.toNat_false] at hbalance
    rw [htally, sparesFor, hcomes, Bool.false_and, Bool.toNat_false]
    omega
  | true =>
    rw [hcomes, Bool.toNat_true] at hbalance
    by_cases hcalls : callsMade manager s a = []
    · refine ⟨answers, hanswered.quiet (by rw [hcalls, List.filter_nil]) hstep, ?_⟩
      rw [htally, sparesFor, hcomes, hcalls, List.isEmpty_nil, Bool.true_and, Bool.toNat_true]
      omega
    · refine ⟨answers ++ [callsMade manager s a], hanswered.called hresponders hcomes hcalls hstep, ?_⟩
      rw [htally, sparesFor, hcomes, List.isEmpty_eq_false_iff.mpr hcalls, Bool.true_and, Bool.toNat_false,
        List.length_append, List.length_singleton]
      omega

end Sums

end Steps

/-! ## Runs -/

section Runs
variable [Fintype ω] [DecidableEq ω] {manager : RouteManager M H L C} {config : ServerConfig}
  {form404 : Option ErrorForm} {s t : State M H L C W ω} {a : Action L W ω}

theorem called_of_exec {run : List (Action L W ω)} (id : ReqId)
    (hrun : exec (step config form404 manager) (init manager) run = some s) :
    Called config form404 manager run s id := by
  have h : exec (step config form404 manager) (init manager) run = some s ∧ ResponderInv s ∧
      Called config form404 manager run s id := by
    refine exec_history (P := fun past s =>
      exec (step config form404 manager) (init manager) past = some s ∧ ResponderInv s ∧
        Called config form404 manager past s id) ⟨rfl, fun _ _ h => (by cases h), ?_⟩ ?_ hrun
    · refine ⟨[], ⟨rfl, fun _ h => (by cases h)⟩, ?_⟩
      simp [tally, State.dispatching, Dispatches, init, Answers]
    · intro past s a t h hstep
      obtain ⟨hpast, hresponders, hcalled⟩ := h
      refine ⟨?_, responderInv_step hresponders hstep, hcalled.step hresponders hpast hstep⟩
      rw [exec_snoc, hpast]
      exact hstep
  exact h.2.2

/-- The protocol of the server keeps the account of its injections. -/
theorem accounted_of_exec {run : List (Action L W ω)} (id : ReqId)
    (hrun : exec (step config form404 manager) (init manager) run = some s) :
    Dispatch.Accounted s.shared id := by
  refine exec_invariant (P := fun s => Dispatch.Accounted s.shared id) Dispatch.accounted_init ?_ hrun
  intro s a t h hstep
  cases step_shared hstep with
  | same shared => rwa [shared]
  | packet _ shared => exact shared ▸ h
  | along _ step => exact h.step step

/-- What became of the ends of a stream that were handed to the response workers: they
were answered by calls of the user's code, or there was nothing to call, or they were
used up on an entry that was rejected or gone, or they are still with the workers. -/
def EndsAccounted (config : ServerConfig) (form404 : Option ErrorForm) (manager : RouteManager M H L C)
    (run : List (Action L W ω)) (s : State M H L C W ω) (id : ReqId) : Prop :=
  ∃ answers, Answered manager s id answers ∧
    s.shared.log.countP (Dispatch.Event.Injects id) = answers.length +
      tally (step config form404 manager) (sparesFor manager id) (init manager) run +
      s.dispatching id + s.shared.log.countP (Dispatch.Event.Discards id) +
      s.shared.injections.count id + s.shared.holders id

theorem endsAccounted_of_exec {run : List (Action L W ω)}
    (hrun : exec (step config form404 manager) (init manager) run = some s) (id : ReqId) :
    EndsAccounted config form404 manager run s id := by
  obtain ⟨answers, hanswered, hcount⟩ := called_of_exec id hrun
  have haccounted := accounted_of_exec id hrun
  unfold Dispatch.Accounted at haccounted
  exact ⟨answers, hanswered, by omega⟩

/-- Every end of a stream that was handed to the response workers is accounted for. -/
theorem ends_accounted {run : List (Action L W ω)}
    (hrun : exec (step config form404 manager) (init manager) run = some s) (id : ReqId) :
    EndsAccounted config form404 manager run s id :=
  endsAccounted_of_exec hrun id

/-- A request whose stream ends while its section is in the queue, and its answer. -/
def finishedEarly : List (Action Unit Unit Unit) :=
  [.headers (section0 (getRequest "/a")), .processHeader, .finished ("c", 0) [1]]

theorem ends_accounted_served : ∃ s : State Unit Unit Unit Unit Unit Unit,
    exec (step ⟨⟨[]⟩⟩ none guardedRoute) (init guardedRoute)
      (finishedEarly ++ calledOnce 0 (.ok (.continued [])) ++ accepted 0 ++ respondedTo) = some s ∧
    (s.invocationsOf ("c", 0)).length = 1 ∧
    EndsAccounted ⟨⟨[]⟩⟩ none guardedRoute
      (finishedEarly ++ calledOnce 0 (.ok (.continued [])) ++ accepted 0 ++ respondedTo) s ("c", 0) := by
  have hrun : ((exec (step ⟨⟨[]⟩⟩ none guardedRoute)
      (init guardedRoute : State Unit Unit Unit Unit Unit Unit)
      (finishedEarly ++ calledOnce 0 (.ok (.continued [])) ++ accepted 0 ++ respondedTo)).any
      fun s => decide ((s.invocationsOf ("c", 0)).length = 1)) = true := by
    decide +kernel
  obtain ⟨s, hs, hone⟩ := Option.any_eq_true _ _ |>.mp hrun
  exact ⟨s, hs, of_decide_eq_true hone, ends_accounted hs ("c", 0)⟩

end Runs

end FacesHttp3.Server
