import FacesHttp3.Dispatch.Transitions
import FacesHttp3.Lib.Progress

/-! # What is left to do

A bound on the steps the threads of the protocol still make once the network thread
is silent. A worker that finds an entry without verdict gives its injection back and
tries again, so only the other steps are bounded; and while no entry is without
verdict, a few steps of a worker always lead to one of these. -/

namespace FacesHttp3.Dispatch
open FacesHttp3.Lib FacesHttp3.Lib.Exec FacesHttp3.Request

variable {ρ ω : Type}

/-- The steps of the longest way out of `register` that are not attempts, with what
the preparation itself may add. -/
def RegPc.work : RegPc → Nat
  | .idle => 0
  | .holding _ | .missed _ | .requeueing _ => 7
  | .taken _ _ _ => 6
  | .cleaning _ => 2
  | .responding _ | .rejecting _ => 1

def NetPc.work : NetPc → Nat
  | .idle => 0
  | .discarding _ | .discardingConnection _ => 1

/-- An injection is worth the same in the queue and in the hands of a worker. -/
def State.work [Fintype ω] (s : State ρ ω) : Nat :=
  s.net.work + 2 * s.verdicts.length + (s.receiver.elim 0 fun _ => 1) +
    7 * s.injections.length + ∑ w, (s.workers w).work

/-- The entry has its verdict. -/
def Slot.Decided (slot : Slot) : Bool := slot.disposition != .pending

/-- An attempt: the worker takes an injection, finds no verdict and gives it back. -/
def polls (s : State ρ ω) : Action ρ ω → Bool
  | .pick _ | .requeue _ => true
  | .removeIf w =>
    match s.workers w with
    | .holding id => !(s.signal id).any Slot.Decided
    | _ => false
  | .containsKey w =>
    match s.workers w with
    | .missed id => (s.signal id).isSome
    | _ => false
  | _ => false

namespace Action

/-- What a step adds to the work. -/
def adds : Action ρ ω → Nat
  | .finish _ => 7
  | .cancelRequest _ | .cancelConnection _ => 1
  | .jobVerdict _ _ => 2
  | _ => 0

/-- What a step takes off it. -/
def takes (s : State ρ ω) : Action ρ ω → Nat
  | .discard | .receive | .receiverDiscard | .cleanEntry _ | .endPreparation _
  | .discardRejected _ => 1
  | .removeIf w => (!polls s (.removeIf w)).toNat
  | .containsKey w => (!polls s (.containsKey w)).toNat
  | .buildRouteEvent _ _ => 4
  | _ => 0

/-- The steps of a worker in `register`. -/
def Registers : Action ρ ω → Bool
  | .pick _ | .removeIf _ | .containsKey _ | .requeue _ | .cleanEntry _ | .discardRejected _ => true
  | _ => false

end Action

variable [Fintype ω] [DecidableEq ω] {s t : State ρ ω} {a : Action ρ ω}

theorem setWorker_work (s : State ρ ω) (w : ω) (pc : RegPc) :
    (s.setWorker w pc).work + (s.workers w).work = s.work + pc.work := by
  have hsum := sum_update (fun _ pc => RegPc.work pc) s.workers w pc
  simp only [State.work, State.setWorker] at hsum ⊢
  omega

/-- A worker moves, and the rest of the work is as it was. -/
theorem work_of_worker (w : ω) (pc : RegPc) {d : Nat} (hwork : t.work = (s.setWorker w pc).work)
    (hle : pc.work + d ≤ (s.workers w).work) : t.work + d ≤ s.work := by
  have hworker := setWorker_work s w pc
  omega

omit [Fintype ω] in
/-- A worker that misses its entry found none with a verdict. -/
theorem polls_of_missed {w : ω} {id : ReqId} (h : step s (.removeIf w) = some t)
    (hmissed : t.workers w = .missed id) : polls s (.removeIf w) = true := by
  simp only [step] at h
  split at h
  case h_2 => cases h
  rename_i hat
  split at h <;> cases h
  · simp [State.record] at hmissed
  · simp [State.record] at hmissed
  · rename_i hpending
    simp [polls, hat, hpending, Slot.Decided]
  · rename_i hnone
    simp [polls, hat, hnone]

omit [Fintype ω] in
/-- A worker that gives its injection back found an entry. -/
theorem polls_of_requeueing {w : ω} {id : ReqId} (h : step s (.containsKey w) = some t)
    (hrequeueing : t.workers w = .requeueing id) : polls s (.containsKey w) = true := by
  simp only [step] at h
  split at h
  case h_2 => cases h
  rename_i hat
  split at h <;> cases h
  · rename_i hsome
    simp [polls, hat, hsome]
  · simp [State.record] at hrequeueing

/-- Every step takes off the work what it is worth. -/
theorem step_work (h : step s a = some t) : t.work + a.takes s ≤ s.work + a.adds := by
  cases step_transition h with
  | begun | created | data | started | wrote => exact Nat.le_refl _
  | finished =>
    simp only [State.work, State.record, List.length_append, List.length_singleton, Action.takes,
      Action.adds]
    omega
  | cancelled idle | cancelledConnection idle =>
    simp only [State.work, State.record, idle, NetPc.work, Action.takes, Action.adds]
    omega
  | discarded net | discardedConnection net =>
    simp only [State.work, net, NetPc.work, Action.takes, Action.adds]
    omega
  | judged =>
    simp only [State.work, List.length_append, List.length_singleton, Action.takes, Action.adds]
    omega
  | received free queued | unknown free queued =>
    simp only [State.work, State.record, free, queued, List.length_cons, Option.elim_none,
      Option.elim_some, Action.takes, Action.adds]
    omega
  | receiverDiscarded receiver =>
    simp only [State.work, receiver, Option.elim_none, Option.elim_some, Action.takes, Action.adds]
    omega
  | @picked w id rest at_ queued =>
    have hworker := setWorker_work { s with injections := rest } w (.holding id)
    simp only [State.work, at_, queued, RegPc.work, List.length_cons, Action.takes, Action.adds]
      at hworker ⊢
    omega
  | @requeued w id at_ =>
    have hworker := setWorker_work { s with injections := s.injections ++ [id] } w .idle
    simp only [State.work, at_, RegPc.work, List.length_append, List.length_singleton, Action.takes,
      Action.adds] at hworker ⊢
    omega
  | @taken w id born at_ =>
    refine work_of_worker w (.taken id born s.log.length) rfl ?_
    have htakes := Bool.toNat_le (!polls s (.removeIf w))
    simp only [at_, RegPc.work, Action.takes]
    omega
  | @rejected w id born at_ =>
    refine work_of_worker w (.rejecting id) rfl ?_
    have htakes := Bool.toNat_le (!polls s (.removeIf w))
    simp only [at_, RegPc.work, Action.takes]
    omega
  | @missed w id at_ =>
    have hpolls := polls_of_missed h (by rw [setWorker_workers, if_pos rfl])
    exact work_of_worker w (.missed id) rfl (by simp [at_, RegPc.work, Action.takes, hpolls])
  | @retried w id at_ =>
    have hpolls := polls_of_requeueing h (by rw [setWorker_workers, if_pos rfl])
    exact work_of_worker w (.requeueing id) rfl (by simp [at_, RegPc.work, Action.takes, hpolls])
  | @dropped w id at_ =>
    refine work_of_worker w .idle rfl ?_
    have htakes := Bool.toNat_le (!polls s (.containsKey w))
    simp only [at_, RegPc.work, Action.takes]
    omega
  | @prepared w id born taken record take at_ =>
    exact work_of_worker w (.cleaning id) rfl (by simp [at_, RegPc.work, Action.takes])
  | @preparedEmpty w id born taken take at_ =>
    exact work_of_worker w (.responding id) rfl (by simp [at_, RegPc.work, Action.takes])
  | @cleaned w id at_ =>
    exact work_of_worker w (.responding id) rfl (by simp [at_, RegPc.work, Action.takes])
  | @ended w id at_ | @discardedRejected w id at_ =>
    exact work_of_worker w .idle rfl (by simp [at_, RegPc.work, Action.takes])

/-! ## While no entry is without verdict -/

/-- Every entry has its verdict. -/
def AllDecided (s : State ρ ω) : Prop := ∀ id slot, s.signal id = some slot → slot.Decided = true

/-- Steps of the workers in `register` lead to less work. -/
def Lowers (s : State ρ ω) : Prop :=
  ∃ t, Leads step (fun _ a => a.Registers = true) s t ∧ t.work < s.work

omit [Fintype ω] [DecidableEq ω] in
theorem adds_of_registers (h : a.Registers = true) : a.adds = 0 := by
  cases a <;> first | rfl | cases h

theorem Lowers.of_step (hregisters : a.Registers = true) (h : step s a = some t) (hlowers : Lowers t) :
    Lowers s := by
  have hwork := step_work h
  rw [adds_of_registers hregisters] at hwork
  obtain ⟨u, hleads, hlt⟩ := hlowers
  exact ⟨u, .head hregisters h hleads, by omega⟩

/-- How many attempts a worker still makes before a step that is none, where every entry
has its verdict. -/
def RegPc.attempts (s : State ρ ω) : RegPc → Nat
  | .holding _ => 2
  | .missed id => if (s.signal id).isSome then 5 else 1
  | .requeueing _ => 4
  | _ => 0

def State.attempts (s : State ρ ω) : Nat :=
  3 * s.injections.length + ∑ w, (s.workers w).attempts s

/-- Only the worker of an attempt moves, and the entries stay. -/
theorem attempts_lt (w : ω) (pc : RegPc) (hworkers : t.workers = (s.setWorker w pc).workers)
    (hsignal : t.signal = s.signal)
    (hlt : 3 * t.injections.length + pc.attempts s < 3 * s.injections.length + (s.workers w).attempts s) :
    t.attempts < s.attempts := by
  have hsame : ∀ pc : RegPc, pc.attempts t = pc.attempts s := by
    intro pc
    cases pc <;> simp [RegPc.attempts, hsignal]
  have hsum := sum_update (fun _ pc => RegPc.attempts s pc) s.workers w pc
  simp only [State.attempts, hworkers, State.setWorker, hsame]
  omega

/-- An attempt is one of those that are left. -/
theorem attempts_step (hdecided : AllDecided s) (hpolls : polls s a = true) (h : step s a = some t) :
    t.attempts < s.attempts := by
  cases step_transition h with
  | @picked w id rest at_ queued =>
    refine attempts_lt w (.holding id) rfl rfl ?_
    simp only [State.setWorker, at_, queued, RegPc.attempts, List.length_cons]
    omega
  | @missed w id at_ =>
    have habsent : s.signal id = none := by
      cases hsignal : s.signal id with
      | none => rfl
      | some slot => simp [polls, at_, hsignal, hdecided id slot hsignal] at hpolls
    exact attempts_lt w (.missed id) rfl rfl (by simp [State.setWorker, at_, RegPc.attempts, habsent])
  | @retried w id at_ =>
    have hsome : (s.signal id).isSome = true := by simpa [polls, at_] using hpolls
    exact attempts_lt w (.requeueing id) rfl rfl
      (by simp [State.setWorker, at_, RegPc.attempts, hsome])
  | @requeued w id at_ =>
    refine attempts_lt w .idle rfl rfl ?_
    simp only [State.setWorker, at_, RegPc.attempts, List.length_append, List.length_singleton]
    omega
  | @taken w id born at_ ready => simp [polls, at_, ready, Slot.Decided] at hpolls
  | @rejected w id born at_ rejected => simp [polls, at_, rejected, Slot.Decided] at hpolls
  | @dropped w id at_ absent => simp [polls, at_, absent] at hpolls
  | _ => cases hpolls

end FacesHttp3.Dispatch
