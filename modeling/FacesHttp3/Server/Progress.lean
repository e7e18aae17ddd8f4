import FacesHttp3.Dispatch.Progress
import FacesHttp3.Server.Rejections
import FacesHttp3.Server.Verdicts

/-! # The server comes to rest

What the server still has to do is bounded by what the network has given it. As long
as the network thread gets nothing new, every step but an attempt lowers the bound,
and whatever the middlewares and the file system answer, the threads can go on until
every section has its verdict and every finished request was taken, rejected or
dropped: no order of steps before leaves them stuck. -/

namespace FacesHttp3.Server
open FacesHttp3.Lib FacesHttp3.Lib.Exec FacesHttp3.Request FacesHttp3.Router
open FacesHttp3.RequestsTable FacesHttp3.InFlight

variable {M H L C W ω : Type}

/-- The network thread gets something new: a frame, the end of a stream or of a
connection. -/
def Action.Delivers : Action L W ω → Bool
  | .headers _ | .dataCheck _ | .finished _ _ | .reset _ _ | .closeConnection _ _
  | .removeStream _ => true
  | _ => false

/-! ## The bound -/

/-- What is left of the event the network thread is in, with the section it makes. -/
def NetworkPc.work (manager : RouteManager M H L C) : NetworkPc → Nat
  | .idle => 0
  | .processing message => 3 * (chainLength manager message + 9) + 1
  | .missing _ => 2
  | .entered _ => 1

def Responder.work (responder : Responder W) : Nat :=
  (!responder.hasQueue).toNat + (!responder.called).toNat + responder.again.toNat

theorem ofEvent_work (manager : RouteManager M H L C) (scid : Bytes) (event : Option (FinishedEvent W)) :
    (Responder.ofEvent manager scid event).work ≤ 3 := by
  have hagain := Bool.toNat_le (insertsAgain manager event)
  simp only [Responder.ofEvent, Responder.work, Bool.not_false, Bool.toNat_true]
  omega

/-- Inserting the queue is one of the steps a preparation still has. -/
theorem insertQueue_work {responder : Responder W} (h : responder.Inserts = true) :
    responder.insertQueue.work + 1 = responder.work := by
  unfold Responder.Inserts at h
  split at h
  case isTrue hcalled => simp [Responder.insertQueue, Responder.work, hcalled, h]
  case isFalse hcalled =>
    simp only [Bool.not_eq_true, Bool.not_eq_true'] at hcalled h
    simp only [Responder.insertQueue, Responder.work, hcalled, h]
    simp
    omega

def State.sectionsWork (manager : RouteManager M H L C) (s : State M H L C W ω) : Nat :=
  ∑ number ∈ Finset.range s.sections, s.remaining manager number

/-- The verdict of a section is worth two steps of the receiver. -/
def State.work [Fintype ω] (manager : RouteManager M H L C) (s : State M H L C W ω) : Nat :=
  s.network.work manager + s.shared.work + 3 * s.sectionsWork manager +
    ∑ w, (s.responders w).elim 0 Responder.work

/-- An attempt of a response worker. -/
def polls (s : State M H L C W ω) : Action L W ω → Bool
  | .protocol action => Dispatch.polls s.shared action
  | _ => false

section Work
variable [Fintype ω] [DecidableEq ω] {manager : RouteManager M H L C} {config : ServerConfig}
  {form404 : Option ErrorForm} {s t : State M H L C W ω} {a : Action L W ω} {number : Nat}

omit [Fintype ω] in
/-- A section's own step leaves the network thread and the response workers alone. -/
theorem own_frame (hnumber : a.number = some number) (hstep : step config form404 manager s a = some t) :
    t.network = s.network ∧ t.responders = s.responders ∧ t.sections = s.sections := by
  cases step_transition hstep with
  | headersAdmitted | headersRefused | sectionQueued | dataChecked | dataEntered | dataWritten
  | finishedHandled | finishedCancelled | streamReset | connectionClosed | streamRemoved | eventBuilt
  | queueInserted | handlerCalled | preparationEnded | along => cases hnumber
  | _ => exact ⟨rfl, rfl, rfl⟩

/-- The verdict of a section is all it may add to the protocol's work. -/
theorem own_shared (hnumber : a.number = some number) (hstep : step config form404 manager s a = some t) :
    t.shared.work ≤ s.shared.work + 2 := by
  cases step_shared hstep with
  | same shared =>
    rw [shared]
    omega
  | packet _ shared =>
    rw [shared]
    exact Nat.le_add_right _ _
  | @along action makes step =>
    have hwork := Dispatch.step_work step
    have hadds : action.adds ≤ 2 := by
      cases a <;> cases hnumber <;> simp only [Action.Makes] at makes
      case complete | lookup | create =>
        obtain ⟨write, rfl⟩ := makes
        exact Nat.zero_le _
      all_goals exact makes ▸ Nat.le_refl _
    omega

omit [Fintype ω] in
theorem sectionsWork_own (h : GateInv manager s) (hnumber : a.number = some number)
    (hstep : step config form404 manager s a = some t) :
    t.sectionsWork manager + 1 ≤ s.sectionsWork manager := by
  have hlt : number < s.sections := by
    cases step_section hstep number with
    | elsewhere other | admitted other => exact absurd hnumber other
    | own own before =>
      by_contra hge
      cases (h.fresh number (Nat.le_of_not_lt hge)).1.symm.trans before
  rw [State.sectionsWork, (own_frame hnumber hstep).2.2]
  refine Nat.succ_le_of_lt
    (Finset.sum_lt_sum (fun i hi => ?_) ⟨number, Finset.mem_range.mpr hlt, ?_⟩)
  · have hother := remaining_step (Finset.mem_range.mp hi) hstep
    split at hother
    · exact hother.le
    · exact hother.le
  · have hown := remaining_step hlt hstep
    rwa [if_pos hnumber] at hown

omit [Fintype ω] in
theorem sum_remaining_other (hnumber : a.number = none)
    (hstep : step config form404 manager s a = some t) :
    ∑ number ∈ Finset.range s.sections, t.remaining manager number = s.sectionsWork manager := by
  refine Finset.sum_congr rfl fun i hi => ?_
  have hother := remaining_step (Finset.mem_range.mp hi) hstep
  rwa [if_neg (by simp [hnumber])] at hother

omit [Fintype ω] in
/-- The section that is numbered brings what it has to do. -/
theorem sectionsWork_numbered {message : HeaderMessage} (hm : s.network = .processing message)
    (hstep : step config form404 manager s .processHeader = some t) :
    t.sectionsWork manager = s.sectionsWork manager + (chainLength manager message + 9) := by
  have hsame := sum_remaining_other rfl hstep
  have hlast : t.sections = s.sections + 1 ∧
      t.remaining manager s.sections = chainLength manager message + 9 := by
    cases step_transition hstep with
    | sectionQueued processing =>
      cases hm.symm.trans processing
      exact ⟨rfl, by simp [State.remaining, State.setJob, JobPc.remaining]⟩
  rw [State.sectionsWork, hlast.1, Finset.sum_range_succ, hsame, hlast.2]

theorem work_numbered {message : HeaderMessage} (hm : s.network = .processing message)
    (hstep : step config form404 manager s .processHeader = some t) :
    t.work manager + 1 ≤ s.work manager := by
  have hframe : t.network = .idle ∧ t.responders = s.responders ∧ t.shared.work ≤ s.shared.work := by
    cases step_transition hstep with
    | sectionQueued _ protocol => exact ⟨rfl, rfl, Dispatch.step_work protocol⟩
  obtain ⟨hnetwork, hresponders, hshared⟩ := hframe
  simp only [State.work, hnetwork, hresponders, sectionsWork_numbered hm hstep, hm, NetworkPc.work]
  omega

/-- Until the network thread gets something new, every step but an attempt lowers the
bound. -/
theorem step_work (h : GateInv manager s) (hdelivers : a.Delivers = false)
    (hstep : step config form404 manager s a = some t) :
    t.work manager + (!polls s a).toNat ≤ s.work manager := by
  cases hnumber : a.number with
  | some number =>
    obtain ⟨hnetwork, hresponders, -⟩ := own_frame hnumber hstep
    have hshared := own_shared hnumber hstep
    have hsections := sectionsWork_own h hnumber hstep
    have hpolls := Bool.toNat_le (!polls s a)
    simp only [State.work, hnetwork, hresponders]
    omega
  | none =>
    have hsections := sum_remaining_other hnumber hstep
    have hpolls := Bool.toNat_le (!polls s a)
    cases step_transition hstep with
    | headersAdmitted | headersRefused | dataChecked | finishedHandled | finishedCancelled | streamReset
    | connectionClosed | streamRemoved => cases hdelivers
    | sectionQueued processing =>
      have hnumbered := work_numbered processing hstep
      omega
    | dataEntered missing | dataWritten missing =>
      have hshared : ∀ id write, (s.shared.write id write).work = s.shared.work := fun _ _ => rfl
      simp only [State.work, State.sectionsWork, hshared, missing, NetworkPc.work] at hsections ⊢
      omega
    | @eventBuilt w scid id born taken shared at_ protocol =>
      have hshared := Dispatch.step_work protocol
      have hsum := sum_update (fun _ r => Option.elim r 0 Responder.work) s.responders w
        (some (Responder.ofEvent manager scid
          ((s.shared.table id).bind fun entry => (entry.buildRouteEvent id scid).2.1)))
      have hnew := ofEvent_work manager scid
        ((s.shared.table id).bind fun entry => (entry.buildRouteEvent id scid).2.1)
      simp only [Option.elim_some, Dispatch.Action.takes, Dispatch.Action.adds] at hshared hsum
      simp only [State.work, State.sectionsWork] at hsections ⊢
      omega
    | @queueInserted w id responder at_ held inserts =>
      have hsum := sum_update (fun _ r => Option.elim r 0 Responder.work) s.responders w
        (some responder.insertQueue)
      have hlower := insertQueue_work inserts
      simp only [held, Option.elim_some] at hsum
      simp only [State.work, State.sectionsWork] at hsections ⊢
      omega
    | @handlerCalled w id responder at_ held queue fresh =>
      have hsum := sum_update (fun _ r => Option.elim r 0 Responder.work) s.responders w
        (some { responder with called := true })
      simp only [held, fresh, Option.elim_some, Responder.work, Bool.not_true, Bool.not_false,
        Bool.toNat_false, Bool.toNat_true] at hsum
      simp only [State.work, State.sectionsWork] at hsections ⊢
      omega
    | @preparationEnded w responder shared held called inserted protocol =>
      have hshared := Dispatch.step_work protocol
      have hsum := sum_update (fun _ r => Option.elim r 0 Responder.work) s.responders w none
      simp only [Option.elim_none, Dispatch.Action.takes, Dispatch.Action.adds] at hshared hsum
      simp only [State.work, State.sectionsWork] at hsections ⊢
      omega
    | @along action shared internal protocol =>
      have hshared := Dispatch.step_work protocol
      have htakes : action.takes s.shared = (!Dispatch.polls s.shared action).toNat ∧
          action.adds = 0 := by
        cases action <;> first | exact ⟨rfl, rfl⟩ | cases internal
      rw [htakes.1, htakes.2] at hshared
      simp only [State.work, State.sectionsWork, polls] at hsections ⊢
      omega
    | _ => cases hnumber

end Work

end FacesHttp3.Server
