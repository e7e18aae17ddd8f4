import FacesHttp3.Server.Sections
import Mathlib.Data.Fintype.Basic

/-! # Rejections and handlers

A rejection is answered by header processing, so no handler must run for its
stream afterwards. The verdicts of the sections of one stream share one entry of
the disposition table, and the last one received is what a response worker finds:
a rejection stands as long as no `Ready` of the stream comes behind it, overtakes it
or is still being dispatched. -/

namespace FacesHttp3.Server
open FacesHttp3.Lib FacesHttp3.Lib.Exec FacesHttp3.Request FacesHttp3.Router
open FacesHttp3.RequestsTable FacesHttp3.InFlight

variable {M H L C W ω : Type}

/-- A section of the stream was rejected and its error response is queued. -/
def ErrorQueued (s : State M H L C W ω) (id : ReqId) : Prop :=
  ∃ error ∈ s.errors, (error.1, id, .rejected) ∈ s.verdicts

instance (s : State M H L C W ω) (id : ReqId) : Decidable (ErrorQueued s id) := by
  unfold ErrorQueued; infer_instance

/-- The calls of the user's code for a stream. -/
def State.invocationsOf (s : State M H L C W ω) (id : ReqId) : List (Invocation H C W) :=
  s.invocations.filter fun invocation => invocation.event.id = id

/-- The request a response worker answers: it consumed a `Ready` of it. -/
def Answers : Dispatch.RegPc → Option ReqId
  | .taken id _ _ | .cleaning id | .responding id => some id
  | _ => none

/-- The response worker consumed a `Ready` of the stream and has not called its
handler yet. -/
def Dispatches (s : State M H L C W ω) (w : ω) (id : ReqId) : Prop :=
  Answers (s.shared.workers w) = some id ∧ (s.responders w).any Responder.called = false

instance (s : State M H L C W ω) (w : ω) (id : ReqId) : Decidable (Dispatches s w id) := by
  unfold Dispatches; infer_instance

/-- The verdicts of a stream stay in order: no `Ready` is stored behind a rejection that
was received, none is taken ahead of one that waits in the channel, and no section is
rejected while a worker is about to call the handler for a `Ready` it took. -/
def RespectsRejection (s : State M H L C W ω) : Action L W ω → Prop
  | .protocol .receive =>
    match s.shared.verdicts with
    | (id, .ready) :: _ =>
      (s.shared.signal id).isSome = true → .received id .rejected ∉ s.shared.log
    | _ => True
  | .protocol (.removeIf w) =>
    match s.shared.workers w with
    | .holding id =>
      (s.shared.signal id).any (fun slot => slot.disposition = .ready) = true →
        (id, .rejected) ∉ s.shared.verdicts
    | _ => True
  | .sendRejected number =>
    match s.jobs number with
    | some pc => ∀ w, ¬ Dispatches s w pc.message.id
    | none => True
  | _ => True

instance [DecidableEq ω] [Fintype ω] (s : State M H L C W ω) (a : Action L W ω) :
    Decidable (RespectsRejection s a) := by
  induction a using Action.casesOn <;> dsimp only [RespectsRejection] <;> try infer_instance
  case sendRejected number => rcases s.jobs number with _ | pc <;> infer_instance
  case protocol action =>
    induction action using Dispatch.Action.casesOn <;> try infer_instance
    case receive =>
      dsimp only
      rcases s.shared.verdicts with _ | ⟨⟨id, _ | _⟩, rest⟩ <;> infer_instance
    case removeIf w => dsimp only; rcases s.shared.workers w with _ | id | _ <;> infer_instance

section Steps
variable {manager : RouteManager M H L C} {config : ServerConfig} {form404 : Option ErrorForm}
  {s t : State M H L C W ω} {a : Action L W ω} {id : ReqId} {w : ω}

/-! ## The verdicts of a stream -/

/-- A section of the stream was rejected. -/
def Rejected (s : State M H L C W ω) (id : ReqId) : Prop := ∃ number, (number, id, .rejected) ∈ s.verdicts

theorem ErrorQueued.rejected (h : ErrorQueued s id) : Rejected s id := by
  obtain ⟨error, -, hverdict⟩ := h
  exact ⟨error.1, hverdict⟩

/-- The rejection waits in the channel, or it was received. -/
def Announced {ρ : Type} (s : Dispatch.State ρ ω) (id : ReqId) : Prop :=
  (id, .rejected) ∈ s.verdicts ∨ .received id .rejected ∈ s.log

/-- No `Ready` stands where a rejection was received. -/
def Stands {ρ : Type} (s : Dispatch.State ρ ω) (id : ReqId) : Prop :=
  .received id .rejected ∈ s.log → ∀ slot, s.signal id = some slot → slot.disposition ≠ .ready

variable [DecidableEq ω]

/-- A verdict is received in the order it was sent, and not lost. -/
theorem announced_step {ρ : Type} {s t : Dispatch.State ρ ω} {action : Dispatch.Action ρ ω}
    (hstep : Dispatch.step s action = some t) (h : Announced s id) : Announced t id := by
  have hlogged : ∀ {t : Dispatch.State ρ ω} {e : Dispatch.Event ω}, t.verdicts = s.verdicts →
      t.log = s.log ++ [e] → Announced t id := by
    intro t e hverdicts hlog
    rcases h with h | h
    · exact .inl (hverdicts ▸ h)
    · exact .inr (hlog ▸ List.mem_append_left _ h)
  cases Dispatch.step_transition hstep with
  | begun | data | discarded | discardedConnection | started | wrote | receiverDiscarded | picked
  | missed | retried | requeued | cleaned | ended | discardedRejected => exact h
  | created | finished | cancelled | cancelledConnection | taken | rejected | dropped | prepared
  | preparedEmpty => exact hlogged rfl rfl
  | judged => exact h.imp_left (List.mem_append_left _)
  | received _ queued | unknown _ queued =>
    rcases h with h | h
    · rw [queued, List.mem_cons] at h
      rcases h with heq | h
      · cases heq
        exact .inr (List.mem_append_right _ List.mem_cons_self)
      · exact .inl h
    · exact .inr (List.mem_append_left _ h)

/-- The slot of a stream holds the last verdict received for it, so a rejection stands
until a `Ready` is stored behind it. -/
theorem stands_step {ρ : Type} {s t : Dispatch.State ρ ω} {action : Dispatch.Action ρ ω}
    (hstep : Dispatch.step s action = some t) (h : Stands s id)
    (hreceive : action = .receive → ∀ rest, s.verdicts = (id, .ready) :: rest →
      (s.signal id).isSome = true → .received id .rejected ∉ s.log) : Stands t id := by
  -- nothing is stored, and what is recorded is no rejection
  have hkept : ∀ {t : Dispatch.State ρ ω} {es : List (Dispatch.Event ω)}, t.log = s.log ++ es →
      .received id .rejected ∉ es → (∀ slot, t.signal id = some slot → s.signal id = some slot) →
      Stands t id := by
    intro t es hlog hes hsignal hrejected slot hslot
    rw [hlog, List.mem_append] at hrejected
    exact h (hrejected.resolve_right hes) slot (hsignal slot hslot)
  cases Dispatch.step_transition hstep with
  | begun | data | discarded | discardedConnection | started | wrote | judged | receiverDiscarded | picked
  | missed | retried | requeued | cleaned | ended | discardedRejected => exact h
  | finished | dropped | prepared | preparedEmpty => exact hkept rfl (by simp) fun _ hslot => hslot
  | cancelled | taken | rejected => exact hkept rfl (by simp) fun _ => erase_some
  | @cancelledConnection conn =>
    exact hkept rfl (by simp) fun _ => retain_some (p := fun id => id.1 != conn)
  | @created i =>
    intro hrejected slot hslot
    by_cases hi : id = i
    · rw [hi] at hslot
      cases (PMap.insert_self _ _ _).symm.trans hslot
      simp
    · refine h ?_ slot ((PMap.insert_of_ne _ _ hi).symm.trans hslot)
      simpa [Dispatch.State.record] using hrejected
  | @received i verdict rest old free queued found =>
    intro hrejected slot hslot
    by_cases hi : id = i
    · subst hi
      cases (PMap.insert_self _ _ _).symm.trans hslot
      cases verdict with
      | rejected => simp [Dispatch.Verdict.disposition]
      | ready =>
        have hold : .received id .rejected ∈ s.log := by
          simpa [Dispatch.State.record] using hrejected
        exact absurd hold (hreceive rfl rest queued (by simp [found]))
    · refine h ?_ slot ((PMap.insert_of_ne _ _ hi).symm.trans hslot)
      simpa [Dispatch.State.record, hi] using hrejected
  | @unknown i verdict rest free queued absent =>
    intro hrejected slot hslot
    have hi : id ≠ i := by
      rintro rfl
      cases absent.symm.trans hslot
    refine h ?_ slot hslot
    simpa [Dispatch.State.record, hi] using hrejected

/-- What a step of the server sends into the channel of the verdicts. -/
theorem rejected_step (h : GateInv manager s) (hstep : step config form404 manager s a = some t)
    (hrejected : Rejected t id) : Rejected s id ∨
      ∃ number pc, a = .sendRejected number ∧ s.jobs number = some pc ∧ pc.message.id = id ∧
        (id, .rejected) ∈ t.shared.verdicts := by
  obtain ⟨number, hmem⟩ := hrejected
  cases step_transition hstep with
  | signalSent =>
    simp only [List.mem_append, List.mem_singleton, Prod.mk.injEq, reduceCtorEq, and_false,
      or_false] at hmem
    exact .inl ⟨number, hmem⟩
  | @rejectedSent n message rejection shared held protocol =>
    rcases List.mem_append.mp hmem with hold | hnew
    · exact .inl ⟨number, hold⟩
    · cases List.mem_singleton.mp hnew
      refine .inr ⟨_, _, rfl, held, rfl, ?_⟩
      obtain ⟨i, hi, rfl⟩ := Option.map_eq_some_iff.mp protocol
      cases (h.shared _ _ held rfl).symm.trans hi
      exact List.mem_append_right _ List.mem_cons_self
  | _ => exact .inl ⟨number, hmem⟩

/-- A rejection is not taken back. -/
theorem Rejected.step (h : Rejected s id) (hstep : step config form404 manager s a = some t) :
    Rejected t id := by
  obtain ⟨number, hmem⟩ := h
  refine ⟨number, ?_⟩
  cases step_transition hstep with
  | signalSent | rejectedSent => exact List.mem_append_left _ hmem
  | _ => exact hmem

/-! ## Response workers -/

/-- A response worker begins to answer a request when it takes a `Ready` of it. -/
theorem answers_step {ρ : Type} {s t : Dispatch.State ρ ω} {action : Dispatch.Action ρ ω}
    (hstep : Dispatch.step s action = some t) (w : ω) :
    Answers (t.workers w) = none ∨ Answers (t.workers w) = Answers (s.workers w) ∨
      ∃ id born, action = .removeIf w ∧ s.workers w = .holding id ∧
        s.signal id = some ⟨.ready, born⟩ ∧ Answers (t.workers w) = some id := by
  -- the step sets the worker `v` and leaves the others
  have hset : ∀ (v : ω) (pc : Dispatch.RegPc), t.workers = Function.update s.workers v pc →
      (Answers pc = none ∨ Answers pc = Answers (s.workers v)) →
      Answers (t.workers w) = none ∨ Answers (t.workers w) = Answers (s.workers w) := by
    intro v pc hworkers hpc
    rw [hworkers]
    by_cases hv : w = v
    · subst hv
      rwa [Function.update_self]
    · rw [Function.update_of_ne hv]
      exact .inr rfl
  have hsame : t.workers = s.workers →
      Answers (t.workers w) = none ∨ Answers (t.workers w) = Answers (s.workers w) :=
    fun hworkers => .inr (by rw [hworkers])
  rw [← or_assoc]
  cases Dispatch.step_transition hstep with
  | begun | created | data | finished | cancelled | cancelledConnection | discarded
  | discardedConnection | started | wrote | judged | received | unknown | receiverDiscarded =>
    exact .inl (hsame rfl)
  | picked | rejected | missed | retried | dropped | requeued | ended | discardedRejected =>
    exact .inl (hset _ _ rfl (.inl rfl))
  | prepared at_ | preparedEmpty at_ | cleaned at_ =>
    exact .inl (hset _ _ rfl (.inr (by rw [at_]; rfl)))
  | @taken v id born at_ ready =>
    by_cases hv : w = v
    · subst hv
      exact .inr ⟨id, born, rfl, at_, ready, by simp [Dispatch.State.record,
        Dispatch.State.setWorker, Answers]⟩
    · exact .inl (.inr (by simp [Dispatch.State.record, Dispatch.State.setWorker, hv]))

/-- The response worker is past its look at the request table. -/
def Prepares (pc : Dispatch.RegPc) (id : ReqId) : Prop := pc = .cleaning id ∨ pc = .responding id

omit [DecidableEq ω] in
theorem Prepares.answers {pc : Dispatch.RegPc} (h : Prepares pc id) : Answers pc = some id := by
  rcases h with rfl | rfl <;> rfl

omit [DecidableEq ω] in
theorem Prepares.unique {pc : Dispatch.RegPc} {i : ReqId} (h : Prepares pc i) (h' : Prepares pc id) : i = id :=
  Option.some.inj (h.answers.symm.trans h'.answers)

theorem prepares_step {ρ : Type} {s t : Dispatch.State ρ ω} {action : Dispatch.Action ρ ω}
    (hstep : Dispatch.step s action = some t) (h : Prepares (s.workers w) id)
    (hend : action ≠ .endPreparation w) : Prepares (t.workers w) id := by
  have hset : ∀ (v : ω) (pc : Dispatch.RegPc), t.workers = Function.update s.workers v pc →
      (w = v → Prepares pc id) → Prepares (t.workers w) id := by
    intro v pc hworkers hpc
    rw [hworkers]
    by_cases hv : w = v
    · subst hv
      rw [Function.update_self]
      exact hpc rfl
    · rwa [Function.update_of_ne hv]
  -- a worker that is elsewhere does not prepare
  have hother : ∀ {v : ω} {pc next : Dispatch.RegPc}, t.workers = Function.update s.workers v next →
      s.workers v = pc → ¬ Prepares pc id → Prepares (t.workers w) id := by
    intro v pc next hworkers hat hpc
    refine hset v next hworkers fun hv => ?_
    rw [hv, hat] at h
    exact absurd h hpc
  cases Dispatch.step_transition hstep with
  | begun | created | data | finished | cancelled | cancelledConnection | discarded
  | discardedConnection | started | wrote | judged | received | unknown | receiverDiscarded => exact h
  | picked at_ | taken at_ | rejected at_ | missed at_ | retried at_ | dropped at_ | requeued at_
  | prepared at_ | preparedEmpty at_ | discardedRejected at_ =>
    exact hother rfl at_ (by simp [Prepares])
  | cleaned at_ =>
    refine hset _ _ rfl fun heq => .inr ?_
    subst heq
    rcases h with h | h <;> cases h.symm.trans at_
    rfl
  | ended =>
    refine hset _ _ rfl fun heq => ?_
    subst heq
    exact absurd rfl hend

omit [DecidableEq ω] in
theorem makes_endPreparation {v : ω} (h : a.Makes (.endPreparation v)) : a = .endPreparation v := by
  cases a <;> simp_all [Action.Makes]
  · rename_i internal
    obtain ⟨rfl, hinternal⟩ := h
    cases hinternal

omit [DecidableEq ω] in
theorem makes_removeIf {v : ω} (h : a.Makes (.removeIf v)) : a = .protocol (.removeIf v) := by
  cases a <;> simp_all [Action.Makes]

theorem prepares_server {i : ReqId} (hstep : step config form404 manager s a = some t)
    (h : Prepares (s.shared.workers w) i) (hend : a ≠ .endPreparation w) :
    Prepares (t.shared.workers w) i := by
  cases step_shared hstep with
  | same shared => rwa [shared]
  | packet _ shared =>
    rw [shared]
    exact h
  | along makes step => exact prepares_step step h fun heq => hend (makes_endPreparation (heq ▸ makes))

/-- A worker has an event, if any, of the request it answers. -/
def ResponderInv (s : State M H L C W ω) : Prop :=
  ∀ w responder, s.responders w = some responder → ∃ id, Prepares (s.shared.workers w) id ∧
    ∀ event, responder.event = some event → event.id = id

theorem built_worker {scid : Bytes} {i : ReqId} {born taken : Nat}
    (hw : s.shared.workers w = .taken i born taken)
    (hstep : step config form404 manager s (.buildRouteEvent w scid) = some t) :
    Prepares (t.shared.workers w) i := by
  cases step_transition hstep with
  | eventBuilt _ protocol =>
    cases Dispatch.step_transition protocol with
    | prepared at_ =>
      cases hw.symm.trans at_
      exact .inl (by simp [Dispatch.State.record])
    | preparedEmpty at_ =>
      cases hw.symm.trans at_
      exact .inr (by simp [Dispatch.State.record])

/-- A responder was built by the step, or is one of before that has moved on. -/
theorem responder_since {responder : Responder W} (hstep : step config form404 manager s a = some t)
    (hresponder : t.responders w = some responder) :
    (a ≠ .endPreparation w ∧ ∃ before, s.responders w = some before ∧ before.scid = responder.scid ∧
      before.event = responder.event) ∨
    ∃ scid i born taken, a = .buildRouteEvent w scid ∧ s.shared.workers w = .taken i born taken ∧
      responder = Responder.ofEvent manager scid
        ((s.shared.table i).bind fun entry => (entry.buildRouteEvent i scid).2.1) := by
  have hmoved : ∀ {v : ω} {old new : Responder W},
      t.responders = Function.update s.responders v (some new) → s.responders v = some old →
      a ≠ .endPreparation w → old.scid = new.scid → old.event = new.event →
      a ≠ .endPreparation w ∧ ∃ before, s.responders w = some before ∧ before.scid = responder.scid ∧
        before.event = responder.event := by
    intro v old new hresponders hold hend hscid hevent
    rw [hresponders, Function.update_apply] at hresponder
    split at hresponder
    · rename_i heq
      cases hresponder
      exact ⟨hend, old, heq ▸ hold, hscid, hevent⟩
    · exact ⟨hend, responder, hresponder, rfl, rfl⟩
  cases step_respond hstep with
  | same other responders => exact .inl ⟨(other w).1, responder, responders ▸ hresponder, rfl, rfl⟩
  | @built v scid i born taken action worker responders =>
    rw [responders, Function.update_apply] at hresponder
    split at hresponder
    · rename_i heq
      cases hresponder
      subst heq
      exact .inr ⟨scid, i, born, taken, action, worker, rfl⟩
    · exact .inl ⟨by simp [action], responder, hresponder, rfl, rfl⟩
  | queued action before responders =>
    exact .inl (hmoved responders before (by simp [action]) (insertQueue_scid _).symm
      (insertQueue_event _).symm)
  | called action _ before _ responders =>
    exact .inl (hmoved responders before (by simp [action]) rfl rfl)
  | @ended v action responders =>
    rw [responders, Function.update_apply] at hresponder
    split at hresponder
    · cases hresponder
    · rename_i hne
      exact .inl ⟨by simpa [action] using Ne.symm hne, responder, hresponder, rfl, rfl⟩

/-- The event of a responder that is built has the ids of the request. -/
theorem ofEvent_ids {scid : Bytes} {i : ReqId} {entry : Option (PartialReq L W)} {event : FinishedEvent W}
    (h : (Responder.ofEvent manager scid (entry.bind fun entry => (entry.buildRouteEvent i scid).2.1)).event =
      some event) : event.id = i ∧ event.scid = scid := by
  obtain ⟨entry, -, hevent⟩ := Option.bind_eq_some_iff.mp h
  obtain ⟨flushed, -, -, hsame⟩ := buildRouteEvent_flushed entry i scid
  rw [hsame] at hevent
  exact toRouteEvent_ids hevent

theorem responderInv_step (h : ResponderInv s) (hstep : step config form404 manager s a = some t) :
    ResponderInv t := by
  intro w responder hresponder
  rcases responder_since hstep hresponder with
    ⟨hend, before, hbefore, -, hevent⟩ | ⟨scid, i, born, taken, rfl, hworker, rfl⟩
  · obtain ⟨i, hprepares, hid⟩ := h w before hbefore
    exact ⟨i, prepares_server hstep hprepares hend, hevent ▸ hid⟩
  · exact ⟨i, built_worker hworker hstep, fun event hevent => (ofEvent_ids hevent).1⟩

/-- A worker answers a request since it took a `Ready` of it. -/
theorem answers_since (hstep : step config form404 manager s a = some t)
    (hanswers : Answers (t.shared.workers w) = some id) :
    Answers (s.shared.workers w) = some id ∨ ∃ born, a = .protocol (.removeIf w) ∧
      s.shared.workers w = .holding id ∧ s.shared.signal id = some ⟨.ready, born⟩ := by
  cases step_shared hstep with
  | same shared => exact .inl (shared ▸ hanswers)
  | packet _ shared =>
    rw [shared] at hanswers
    exact .inl hanswers
  | along makes step =>
    rcases answers_step step w with hnone | hsame | ⟨i, born, rfl, hholding, hready, hid⟩
    · cases hnone.symm.trans hanswers
    · exact .inl (hsame.symm.trans hanswers)
    · cases hid.symm.trans hanswers
      exact .inr ⟨born, makes_removeIf makes, hholding, hready⟩

/-- A worker is about to call a handler since it took a `Ready`, and not longer. -/
theorem dispatches_step (h : ResponderInv s) (hstep : step config form404 manager s a = some t)
    (hdispatches : Dispatches t w id) : Dispatches s w id ∨ ∃ born,
      a = .protocol (.removeIf w) ∧ s.shared.workers w = .holding id ∧
        s.shared.signal id = some ⟨.ready, born⟩ := by
  obtain ⟨hanswers, huncalled⟩ := hdispatches
  rcases answers_since hstep hanswers with hbefore | hready
  · left
    refine ⟨hbefore, ?_⟩
    cases step_respond hstep with
    | same other responders => rwa [responders] at huncalled
    | @built v scid i born taken action worker responders =>
      rw [responders, Function.update_apply] at huncalled
      split at huncalled
      · rename_i heq
        subst heq
        cases hresponder : s.responders w with
        | none => rfl
        | some responder =>
          obtain ⟨_, hprepares, -⟩ := h w responder hresponder
          rcases hprepares with hprepares | hprepares <;> cases worker.symm.trans hprepares
      · exact huncalled
    | @queued v old action before responders =>
      rw [responders, Function.update_apply] at huncalled
      split at huncalled
      · rename_i heq
        subst heq
        rw [before]
        simpa using huncalled
      · exact huncalled
    | @called v i old opened action worker before fresh responders =>
      rw [responders, Function.update_apply] at huncalled
      split at huncalled
      · cases huncalled
      · exact huncalled
    | @ended v action responders =>
      rw [responders, Function.update_apply] at huncalled
      split at huncalled
      · rename_i heq
        subst heq action
        cases step_transition hstep with
        | preparationEnded _ _ _ protocol =>
          cases Dispatch.step_transition protocol
          simp [Answers] at hanswers
      · exact huncalled
  · exact .inr hready

omit [DecidableEq ω] in
theorem respond_id {event : Option (FinishedEvent W)} {opened : Bool} {invocation : Invocation H C W}
    (h : invocation ∈ respond manager event opened) (hid : ∀ e, event = some e → e.id = id) :
    invocation.event.id = id := by
  cases event with
  | none => cases h
  | some event =>
    rw [respond_event h]
    exact hid event rfl

/-- No handler is called for a stream that no worker is about to answer. -/
theorem invocationsOf_step (h : ResponderInv s) (hidle : ∀ w, ¬ Dispatches s w id)
    (hstep : step config form404 manager s a = some t) : t.invocationsOf id = s.invocationsOf id := by
  cases step_respond hstep with
  | same _ _ invocations | built _ _ _ invocations | queued _ _ _ invocations
  | ended _ _ invocations => rw [State.invocationsOf, invocations, State.invocationsOf]
  | @called w i responder opened action worker before fresh responders invocations =>
    obtain ⟨i', hprepares, hevent⟩ := h w responder before
    obtain rfl : i' = i := by
      rcases hprepares with hprepares | hprepares <;> cases worker.symm.trans hprepares
      rfl
    have hne : i' ≠ id := by
      rintro rfl
      exact hidle w ⟨by rw [worker]; rfl, by rw [before]; exact fresh⟩
    have hnone : (respond manager responder.event opened).filter
        (fun invocation => invocation.event.id = id) = [] := by
      rw [List.filter_eq_nil_iff]
      intro invocation hmem
      simpa [respond_id hmem hevent] using hne
    rw [State.invocationsOf, invocations, List.filter_append, hnone, List.append_nil,
      State.invocationsOf]

/-! ## Runs -/

structure RejectionInv (manager : RouteManager M H L C) (s : State M H L C W ω) : Prop where
  gate : GateInv manager s
  responders : ResponderInv s
  announced : ∀ id, Rejected s id → Announced s.shared id
  stands : ∀ id, Stands s.shared id
  quiet : ∀ w id, Dispatches s w id → ¬ Rejected s id

omit [DecidableEq ω] in
theorem rejectionInv_init : RejectionInv manager (init manager : State M H L C W ω) where
  gate := gateInv_init
  responders _ _ h := by cases h
  announced _ h := by
    obtain ⟨_, hmem⟩ := h
    cases hmem
  stands _ h := by cases h
  quiet _ _ h := by cases h.1

theorem RejectionInv.announced_server (h : RejectionInv manager s)
    (hstep : step config form404 manager s a = some t) (hrejected : Rejected t id) :
    Announced t.shared id := by
  rcases rejected_step h.gate hstep hrejected with hold | ⟨_, _, -, -, -, hsent⟩
  · have hannounced := h.announced id hold
    cases step_shared hstep with
    | same shared => rwa [shared]
    | packet _ shared =>
      rw [shared]
      exact hannounced
    | along _ step => exact announced_step step hannounced
  · exact .inl hsent

omit [DecidableEq ω] in
theorem makes_receive {action : Dispatch.Action (PartialReq L W) ω} (h : a.Makes action)
    (hreceive : action = .receive) : a = .protocol .receive := by
  subst hreceive
  cases a <;> simp_all [Action.Makes]

theorem RejectionInv.stands_server (h : RejectionInv manager s) (hrespects : RespectsRejection s a)
    (hstep : step config form404 manager s a = some t) (id : ReqId) : Stands t.shared id := by
  cases step_shared hstep with
  | same shared => exact shared ▸ h.stands id
  | packet _ shared =>
    rw [shared]
    exact h.stands id
  | along makes step =>
    refine stands_step step (h.stands id) fun hreceive rest hqueued => ?_
    obtain rfl := makes_receive makes hreceive
    simpa only [RespectsRejection, hqueued] using hrespects

theorem rejectionInv_step (h : RejectionInv manager s) (hrespects : RespectsRejection s a)
    (hstep : step config form404 manager s a = some t) : RejectionInv manager t := by
  refine ⟨gateInv_step h.gate hstep, responderInv_step h.responders hstep,
    fun _ => h.announced_server hstep, h.stands_server hrespects hstep, fun w id hdispatches hrejected => ?_⟩
  rcases dispatches_step h.responders hstep hdispatches with hbefore | ⟨born, rfl, hholding, hready⟩
  · rcases rejected_step h.gate hstep hrejected with hold | ⟨number, pc, rfl, hpc, hid, -⟩
    · exact h.quiet w id hbefore hold
    · simp only [RespectsRejection, hpc, hid] at hrespects
      exact hrespects w hbefore
  · -- the worker takes a `Ready` that no rejection waits behind and none was received before
    have hold : Rejected s id := by
      rcases rejected_step h.gate hstep hrejected with hold | ⟨_, _, heq, -⟩
      · exact hold
      · cases heq
    simp only [RespectsRejection, hholding, hready, Option.any_some, decide_true, true_imp_iff] at hrespects
    rcases h.announced id hold with hwaiting | hreceived
    · exact hrespects hwaiting
    · exact h.stands id hreceived _ hready rfl

/-- Once a section of a stream is rejected and its error response is queued, no handler
and no callback is called for the stream, in every run in which the verdicts of each
stream stay in order. -/
theorem rejection_final {before after : List (Action L W ω)} {u : State M H L C W ω}
    (hrespects : Every (step config form404 manager) RespectsRejection (init manager) (before ++ after))
    (hbefore : exec (step config form404 manager) (init manager) before = some u)
    (hafter : exec (step config form404 manager) u after = some t) (hqueued : ErrorQueued u id) :
    t.invocationsOf id = u.invocationsOf id := by
  have hu : RejectionInv manager u := exec_invariant_of_every rejectionInv_init
    (fun _ _ _ h hr hstep => rejectionInv_step h hr hstep) hrespects.prefix_of_append hbefore
  have h : RejectionInv manager t ∧ Rejected t id ∧ t.invocationsOf id = u.invocationsOf id := by
    refine exec_invariant_of_every (P := fun t => RejectionInv manager t ∧ Rejected t id ∧
      t.invocationsOf id = u.invocationsOf id) ⟨hu, hqueued.rejected, rfl⟩ ?_ (hrespects.later hbefore) hafter
    intro v a w h hr hstep
    obtain ⟨hinv, hrejected, hsame⟩ := h
    refine ⟨rejectionInv_step hinv hr hstep, hrejected.step hstep, ?_⟩
    exact (invocationsOf_step hinv.responders (fun w hd => hinv.quiet w id hd hrejected) hstep).trans hsame
  exact h.2.2

end Steps

/-- A section of stream 0 is rejected with a 403, up to its error response. -/
def rejectedSection : List (Action Unit Unit Unit) :=
  [.headers (section0 (getRequest "/a")), .processHeader] ++
    calledOnce 0 (.ok (.aborted (.error403 none))) ++
  [.sendRejected 0, .insertErrorQueue 0, .getSenders 0, .sendError 0, .protocol .receive]

theorem rejection_final_discarded : ∃ u t : State Unit Unit Unit Unit Unit Unit,
    exec (step ⟨⟨[]⟩⟩ none guardedRoute) (init guardedRoute) rejectedSection = some u ∧
    exec (step ⟨⟨[]⟩⟩ none guardedRoute) u [.finished ("c", 0) [1], .protocol (.pick ()),
      .protocol (.removeIf ()), .protocol (.discardRejected ())] = some t ∧
    t.invocationsOf ("c", 0) = u.invocationsOf ("c", 0) := by
  have hrespects : Every (step ⟨⟨[]⟩⟩ none guardedRoute) RespectsRejection
      (init guardedRoute : State Unit Unit Unit Unit Unit Unit)
      (rejectedSection ++ [.finished ("c", 0) [1], .protocol (.pick ()), .protocol (.removeIf ()),
        .protocol (.discardRejected ())]) := by
    decide +kernel
  have hrun : ((exec (step ⟨⟨[]⟩⟩ none guardedRoute)
      (init guardedRoute : State Unit Unit Unit Unit Unit Unit) rejectedSection).any fun u =>
      decide (ErrorQueued u ("c", 0)) && (exec (step ⟨⟨[]⟩⟩ none guardedRoute) u
        [.finished ("c", 0) [1], .protocol (.pick ()), .protocol (.removeIf ()),
          .protocol (.discardRejected ())]).isSome) = true := by
    decide +kernel
  obtain ⟨u, hu, hafter⟩ := Option.any_eq_true _ _ |>.mp hrun
  obtain ⟨hqueued, hafter⟩ := Bool.and_eq_true_iff.mp hafter
  obtain ⟨t, ht⟩ := Option.isSome_iff_exists.mp hafter
  exact ⟨u, t, hu, ht, rejection_final hrespects hu ht (of_decide_eq_true hqueued)⟩

/-- A second section of the stream passes, and its verdict replaces the rejection. -/
def passedSection : List (Action Unit Unit Unit) :=
  [.headers (section0 (getRequest "/a")), .processHeader] ++
    calledOnce 1 (.ok (.continued (getRequest "/a"))) ++ accepted 1 ++
    .finished ("c", 0) [1] :: respondedTo

theorem rejection_overwritten : ¬ ∀ (before after : List (Action Unit Unit Unit))
    (u t : State Unit Unit Unit Unit Unit Unit) (id : ReqId),
    exec (step ⟨⟨[]⟩⟩ none guardedRoute) (init guardedRoute) before = some u →
    exec (step ⟨⟨[]⟩⟩ none guardedRoute) u after = some t → ErrorQueued u id →
    (t.invocationsOf id).length = (u.invocationsOf id).length := by
  intro hall
  have hrun : ((exec (step ⟨⟨[]⟩⟩ none guardedRoute)
      (init guardedRoute : State Unit Unit Unit Unit Unit Unit) rejectedSection).any fun u =>
      decide (ErrorQueued u ("c", 0)) && (exec (step ⟨⟨[]⟩⟩ none guardedRoute) u passedSection).any
        fun t => (t.invocationsOf ("c", 0)).length != (u.invocationsOf ("c", 0)).length) = true := by
    decide +kernel
  obtain ⟨u, hu, hafter⟩ := Option.any_eq_true _ _ |>.mp hrun
  obtain ⟨hqueued, hafter⟩ := Bool.and_eq_true_iff.mp hafter
  obtain ⟨t, ht, hcalled⟩ := Option.any_eq_true _ _ |>.mp hafter
  have hsame := hall _ _ u t ("c", 0) hu ht (of_decide_eq_true hqueued)
  simp [hsame] at hcalled

end FacesHttp3.Server
