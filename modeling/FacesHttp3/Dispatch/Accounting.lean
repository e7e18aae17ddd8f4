import FacesHttp3.Dispatch.Transitions
import FacesHttp3.Lib.Progress

/-! # Every injection is accounted for

A finished request is injected once for each end of its stream. Each of these
injections is in the queue, in the hands of one worker, or was used up in one way:
its worker took the entry, found it rejected or dropped the injection. -/

namespace FacesHttp3.Dispatch
open FacesHttp3.Lib FacesHttp3.Lib.Exec FacesHttp3.Request

variable {ρ ω : Type}

namespace Event

def Injects (id : ReqId) : Event ω → Bool
  | .injected i => i = id
  | _ => false

def Takes (id : ReqId) : Event ω → Bool
  | .taken i _ _ => i = id
  | _ => false

/-- A worker uses up an injection without an answer to prepare. -/
def Discards (id : ReqId) : Event ω → Bool
  | .rejected i _ | .dropped i => i = id
  | _ => false

end Event

/-- How many workers hold an injection of the request. -/
def State.holders [Fintype ω] (s : State ρ ω) (id : ReqId) : Nat :=
  ∑ w, (decide ((s.workers w).injection = some id)).toNat

/-- What became of the injections of `id`. -/
def Accounted [Fintype ω] (s : State ρ ω) (id : ReqId) : Prop :=
  s.log.countP (Event.Injects id) = s.log.countP (Event.Takes id) + s.log.countP (Event.Discards id) +
    s.injections.count id + s.holders id

variable [Fintype ω] [DecidableEq ω] {s t : State ρ ω} {a : Action ρ ω} {id : ReqId}

theorem setWorker_holders (s : State ρ ω) (w : ω) (pc : RegPc) (id : ReqId) :
    (s.setWorker w pc).holders id + (decide ((s.workers w).injection = some id)).toNat =
      s.holders id + (decide (pc.injection = some id)).toNat :=
  sum_update (fun _ pc => (decide (RegPc.injection pc = some id)).toNat) s.workers w pc

omit [DecidableEq ω] in
/-- What is recorded agrees with what is left of the queue and with the workers. -/
theorem Accounted.of_parts (h : Accounted s id) (es : List (Event ω)) (hlog : t.log = s.log ++ es)
    (hbalance : es.countP (Event.Injects id) + s.injections.count id + s.holders id =
      es.countP (Event.Takes id) + es.countP (Event.Discards id) + t.injections.count id +
        t.holders id) : Accounted t id := by
  unfold Accounted at h ⊢
  simp only [hlog, List.countP_append]
  omega

/-- A worker moves, and what it gives up is recorded or back in the queue. -/
theorem Accounted.of_worker (h : Accounted s id) (w : ω) (pc : RegPc) (es : List (Event ω))
    (hworkers : t.workers = (s.setWorker w pc).workers) (hlog : t.log = s.log ++ es)
    (hbalance : es.countP (Event.Injects id) + (decide ((s.workers w).injection = some id)).toNat +
      s.injections.count id = es.countP (Event.Takes id) + es.countP (Event.Discards id) +
      (decide (pc.injection = some id)).toNat + t.injections.count id) : Accounted t id := by
  have hsum := setWorker_holders s w pc id
  have hholders : t.holders id = (s.setWorker w pc).holders id := by simp only [State.holders, hworkers]
  refine h.of_parts es hlog ?_
  omega

theorem Accounted.step (h : Accounted s id) (hstep : step s a = some t) : Accounted t id := by
  cases step_transition hstep with
  | begun | data | discarded | discardedConnection | started | wrote | judged | receiverDiscarded => exact h
  | @created i => exact h.of_parts [.created i] rfl rfl
  | @cancelled i => exact h.of_parts [.cancelled i] rfl rfl
  | @cancelledConnection conn => exact h.of_parts [.cancelledConnection conn] rfl rfl
  | @received i verdict | @unknown i verdict => exact h.of_parts [.received i verdict] rfl rfl
  | @finished i =>
    have hholders : State.holders (State.record { s with
        injections := s.injections ++ [i]
        ended := Function.update s.ended i true } (.injected i)) id = s.holders id := rfl
    refine h.of_parts [.injected i] rfl ?_
    rw [hholders]
    by_cases hi : i = id <;> simp [State.record, Event.Injects, Event.Takes, Event.Discards,
      List.count_append, hi, Nat.add_comm]
  | @picked w i rest at_ queued =>
    refine h.of_worker w (.holding i) [] rfl (by simp [State.setWorker]) ?_
    by_cases hi : i = id <;> simp [at_, queued, RegPc.injection, State.setWorker, hi, Nat.add_comm]
  | @taken w i born at_ =>
    refine h.of_worker w (.taken i born s.log.length) [.taken i born w] rfl rfl ?_
    by_cases hi : i = id <;> simp [at_, RegPc.injection, State.setWorker, State.record,
      Event.Injects, Event.Takes, Event.Discards, hi]
  | @rejected w i born at_ =>
    refine h.of_worker w (.rejecting i) [.rejected i born] rfl rfl ?_
    by_cases hi : i = id <;> simp [at_, RegPc.injection, State.setWorker, State.record,
      Event.Injects, Event.Takes, Event.Discards, hi]
  | @dropped w i at_ =>
    refine h.of_worker w .idle [.dropped i] rfl rfl ?_
    by_cases hi : i = id <;> simp [at_, RegPc.injection, State.setWorker, State.record,
      Event.Injects, Event.Takes, Event.Discards, hi]
  | @requeued w i at_ =>
    refine h.of_worker w .idle [] rfl (by simp [State.setWorker]) ?_
    by_cases hi : i = id <;> simp [at_, RegPc.injection, State.setWorker, hi, Nat.add_comm]
  | @missed w i at_ =>
    exact h.of_worker w (.missed i) [] rfl (by simp [State.setWorker])
      (by simp [at_, RegPc.injection, State.setWorker])
  | @retried w i at_ =>
    exact h.of_worker w (.requeueing i) [] rfl (by simp [State.setWorker])
      (by simp [at_, RegPc.injection, State.setWorker])
  | @prepared w i born taken record take at_ =>
    exact h.of_worker w (.cleaning i) [.prepared i born taken] rfl rfl
      (by simp [at_, RegPc.injection, State.setWorker, State.record, Event.Injects, Event.Takes,
        Event.Discards])
  | @preparedEmpty w i born taken take at_ =>
    exact h.of_worker w (.responding i) [.prepared i born taken] rfl rfl
      (by simp [at_, RegPc.injection, State.setWorker, State.record, Event.Injects, Event.Takes,
        Event.Discards])
  | @cleaned w i at_ =>
    exact h.of_worker w (.responding i) [] rfl (by simp [State.setWorker])
      (by simp [at_, RegPc.injection, State.setWorker])
  | @ended w i at_ | @discardedRejected w i at_ =>
    exact h.of_worker w .idle [] rfl (by simp [State.setWorker])
      (by simp [at_, RegPc.injection, State.setWorker])

omit [DecidableEq ω] in
theorem accounted_init : Accounted ({} : State ρ ω) id := by
  simp [Accounted, State.holders, RegPc.injection]

end FacesHttp3.Dispatch
