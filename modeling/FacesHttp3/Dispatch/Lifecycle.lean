import FacesHttp3.Dispatch.Accounting
import FacesHttp3.Lib.Refinement

/-! # The life of a request

What the dispatch protocol is for, seen from one request: its entry, the ends of its
stream that are not answered yet and the responses being prepared. The protocol
refines it, and has no history less than it allows: where the threads, the queues and
the other requests come in, they decide when something happens, but not what can. -/

namespace FacesHttp3.Dispatch
open FacesHttp3.Lib FacesHttp3.Lib.Exec FacesHttp3.Request

/-! ## The specification -/

/-- What happens to a request. -/
inductive Occurrence
  | created
  | received (verdict : Verdict)
  | injected
  | taken
  | rejected
  | prepared
  | dropped
  | cancelled
  deriving DecidableEq

structure Lifecycle where
  disposition : Option RequestDisposition := none
  ends : Nat := 0
  dispatching : Nat := 0
  deriving DecidableEq

/-- With a pool of `workers`. A response is prepared for an end of the stream whose
entry is ready; a rejected entry and a missing one use the end up. -/
def Lifecycle.next (workers : Nat) (l : Lifecycle) : Occurrence → Option Lifecycle
  | .created => guarded (l.disposition = none) { l with disposition := some .pending }
  | .received verdict => some { l with disposition := l.disposition.map fun _ => verdict.disposition }
  | .injected => some { l with ends := l.ends + 1 }
  | .taken => guarded (l.disposition = some .ready ∧ 0 < l.ends ∧ l.dispatching < workers)
    { disposition := none, ends := l.ends - 1, dispatching := l.dispatching + 1 }
  | .rejected => guarded (l.disposition = some .rejected ∧ 0 < l.ends ∧ l.dispatching < workers)
    { l with disposition := none, ends := l.ends - 1 }
  | .prepared => guarded (0 < l.dispatching) { l with dispatching := l.dispatching - 1 }
  | .dropped => guarded (l.disposition = none ∧ 0 < l.ends ∧ l.dispatching < workers)
    { l with ends := l.ends - 1 }
  | .cancelled => some { l with disposition := none }

/-! ## What the protocol shows of it -/

variable {ρ ω : Type}

def Event.occurrence (id : ReqId) : Event ω → Option Occurrence
  | .created i => if i = id then some .created else none
  | .received i verdict => if i = id then some (.received verdict) else none
  | .injected i => if i = id then some .injected else none
  | .taken i _ _ => if i = id then some .taken else none
  | .rejected i _ => if i = id then some .rejected else none
  | .prepared i _ _ => if i = id then some .prepared else none
  | .dropped i => if i = id then some .dropped else none
  | .cancelled i => if i = id then some .cancelled else none
  | .cancelledConnection conn => if conn = id.1 then some .cancelled else none

/-- What happened to the request so far. -/
def State.history (id : ReqId) (s : State ρ ω) : List Occurrence := s.log.filterMap (Event.occurrence id)

/-- The worker has the entry and has not made its event yet. -/
def RegPc.takes : RegPc → Option ReqId
  | .taken id _ _ => some id
  | _ => none

def State.takers [Fintype ω] (s : State ρ ω) (id : ReqId) : Nat :=
  ∑ w, (decide ((s.workers w).takes = some id)).toNat

structure Shows [Fintype ω] (id : ReqId) (l : Lifecycle) (s : State ρ ω) : Prop where
  disposition : l.disposition = (s.signal id).map Slot.disposition
  ends : l.ends = s.injections.count id + s.holders id
  dispatching : l.dispatching = s.takers id

/-- A step of the protocol is a part of the request's life. -/
def Matched [Fintype ω] (id : ReqId) (l : Lifecycle) (s t : State ρ ω) : Prop :=
  ∃ ks l', t.history id = s.history id ++ ks ∧ exec (Lifecycle.next (Fintype.card ω)) l ks = some l' ∧
    Shows id l' t

section Steps
variable [Fintype ω] [DecidableEq ω] {s t : State ρ ω} {a : Action ρ ω} {id : ReqId} {l : Lifecycle}

theorem setWorker_takers (s : State ρ ω) (w : ω) (pc : RegPc) (id : ReqId) :
    (s.setWorker w pc).takers id + (decide ((s.workers w).takes = some id)).toNat =
      s.takers id + (decide (pc.takes = some id)).toNat :=
  sum_update (fun _ pc => (decide (RegPc.takes pc = some id)).toNat) s.workers w pc

omit [DecidableEq ω] in
/-- A worker that does something else is not one of the takers. -/
theorem takers_lt {w : ω} (h : (s.workers w).takes ≠ some id) : s.takers id < Fintype.card ω := by
  have hlt : s.takers id < ∑ _w : ω, 1 :=
    Finset.sum_lt_sum (fun v _ => Bool.toNat_le _) ⟨w, Finset.mem_univ w, by simp [h]⟩
  simpa using hlt

omit [DecidableEq ω] in
/-- Nothing that concerns the request is recorded, and it has what it had. -/
theorem Shows.of_same (h : Shows id l s) (es : List (Event ω)) (hlog : t.log = s.log ++ es)
    (hes : ∀ e ∈ es, e.occurrence id = none)
    (hdisposition : (t.signal id).map Slot.disposition = (s.signal id).map Slot.disposition)
    (hends : t.injections.count id + t.holders id = s.injections.count id + s.holders id)
    (htakers : t.takers id = s.takers id) :
    Matched id l s t := by
  refine ⟨[], l, ?_, rfl, h.disposition.trans hdisposition.symm, h.ends.trans hends.symm,
    h.dispatching.trans htakers.symm⟩
  rw [State.history, hlog, List.filterMap_append, List.filterMap_eq_nil_iff.mpr hes]
  rfl

omit [DecidableEq ω] in
/-- One event that concerns the request is recorded. -/
theorem Matched.of_event (e : Event ω) {k : Occurrence} {l' : Lifecycle} (hlog : t.log = s.log ++ [e])
    (he : e.occurrence id = some k) (hnext : l.next (Fintype.card ω) k = some l') (h : Shows id l' t) :
    Matched id l s t := by
  refine ⟨[k], l', ?_, by simp [hnext], h⟩
  rw [State.history, hlog, List.filterMap_append]
  simp [he, State.history]

/-- A worker moves, and its request is another one or has what it had. -/
theorem Shows.of_worker (h : Shows id l s) (w : ω) (pc : RegPc) (es : List (Event ω))
    (hworkers : t.workers = (s.setWorker w pc).workers) (hlog : t.log = s.log ++ es)
    (hes : ∀ e ∈ es, e.occurrence id = none)
    (hdisposition : (t.signal id).map Slot.disposition = (s.signal id).map Slot.disposition)
    (hends : t.injections.count id + (decide (pc.injection = some id)).toNat =
      s.injections.count id + (decide ((s.workers w).injection = some id)).toNat)
    (htakers : decide (pc.takes = some id) = decide ((s.workers w).takes = some id)) :
    Matched id l s t := by
  have hholders := setWorker_holders s w pc id
  have htaking := setWorker_takers s w pc id
  have hsame : t.holders id = (s.setWorker w pc).holders id := by simp only [State.holders, hworkers]
  have hsame' : t.takers id = (s.setWorker w pc).takers id := by simp only [State.takers, hworkers]
  refine h.of_same es hlog hes hdisposition ?_ ?_
  · omega
  · rw [htakers] at htaking
    omega

omit [DecidableEq ω] in
/-- A worker that holds an end of the stream is one of the holders. -/
theorem holders_pos {w : ω} (h : (s.workers w).injection = some id) : 0 < s.holders id := by
  have hle := Finset.single_le_sum (f := fun w => (decide ((s.workers w).injection = some id)).toNat)
    (fun _ _ => Nat.zero_le _) (Finset.mem_univ w)
  simp only [h, decide_true, Bool.toNat_true] at hle
  exact hle

/-- A worker uses up the end it holds, and does not take the entry. -/
theorem Shows.ends_used (h : Shows id l s) {w : ω} {pc : RegPc} (hw : (s.workers w).injection = some id)
    (hpc : pc.injection = none) (hworkers : t.workers = (s.setWorker w pc).workers)
    (hinjections : t.injections = s.injections) :
    0 < l.ends ∧ l.ends - 1 = t.injections.count id + t.holders id := by
  have hpos := holders_pos hw
  have hholders := setWorker_holders s w pc id
  have hsame : t.holders id = (s.setWorker w pc).holders id := by simp only [State.holders, hworkers]
  simp only [hw, hpc, decide_true, Bool.toNat_true, reduceCtorEq, decide_false, Bool.toNat_false] at hholders
  have hends := h.ends
  rw [hinjections]
  omega

theorem takers_moved (w : ω) (pc : RegPc) (hw : (s.workers w).takes ≠ some id) (hpc : pc.takes ≠ some id)
    (hworkers : t.workers = (s.setWorker w pc).workers) : t.takers id = s.takers id := by
  have htaking := setWorker_takers s w pc id
  have hsame : t.takers id = (s.setWorker w pc).takers id := by simp only [State.takers, hworkers]
  simp only [hw, hpc, decide_false, Bool.toNat_false] at htaking
  omega

/-- The event of a response is made. -/
theorem Shows.prepares (h : Shows id l s) {w : ω} {i : ReqId} {born taken : Nat} {pc : RegPc}
    (hw : s.workers w = .taken i born taken) (hinjection : pc.injection = none) (htakes : pc.takes = none)
    (hworkers : t.workers = (s.setWorker w pc).workers) (hlog : t.log = s.log ++ [.prepared i born taken])
    (hsignal : t.signal = s.signal) (hinjections : t.injections = s.injections) : Matched id l s t := by
  have hholders := setWorker_holders s w pc id
  have htaking := setWorker_takers s w pc id
  have hsame : t.holders id = (s.setWorker w pc).holders id := by simp only [State.holders, hworkers]
  have hsame' : t.takers id = (s.setWorker w pc).takers id := by simp only [State.takers, hworkers]
  have hold : (s.workers w).injection = none := by rw [hw]; rfl
  have hold' : (s.workers w).takes = some i := by rw [hw]; rfl
  simp only [hold, hinjection, reduceCtorEq, decide_false, Bool.toNat_false] at hholders
  simp only [hold', htakes, Option.some.injEq, reduceCtorEq, decide_false, Bool.toNat_false] at htaking
  by_cases hi : i = id
  · simp only [hi, decide_true, Bool.toNat_true] at htaking
    refine .of_event (.prepared i born taken) hlog (if_pos hi)
      (guarded_eq_some_iff.mpr ⟨by rw [h.dispatching]; omega, rfl⟩) ⟨?_, ?_, ?_⟩
    · rw [hsignal]
      exact h.disposition
    · rw [hinjections]
      have hends := h.ends
      show l.ends = _
      omega
    · have hdispatching := h.dispatching
      show l.dispatching - 1 = t.takers id
      omega
  · simp only [hi, decide_false, Bool.toNat_false] at htaking
    refine h.of_same [.prepared i born taken] hlog (by simp [Event.occurrence, hi]) (by rw [hsignal]) ?_ ?_
    · rw [hinjections]
      omega
    · omega

/-- Each step of the protocol is one of the request's life, or does not concern it. -/
theorem Shows.step (h : Shows id l s) (hstep : step s a = some t) :
    Matched id l s t := by
  cases step_transition hstep with
  | begun | data | discarded | discardedConnection | started | wrote | judged | receiverDiscarded =>
    exact h.of_same [] (List.append_nil _).symm (by simp) rfl rfl rfl
  | @created i idle absent =>
    by_cases hi : i = id
    · subst hi
      refine .of_event (.created i) rfl (if_pos rfl)
        (guarded_eq_some_iff.mpr ⟨by simp [h.disposition, absent], rfl⟩) ⟨?_, h.ends, h.dispatching⟩
      simp [State.record]
    · exact h.of_same [.created i] rfl (by simp [Event.occurrence, hi])
        (by simp [State.record, PMap.insert_of_ne _ _ (Ne.symm hi)]) rfl rfl
  | @finished i =>
    by_cases hi : i = id
    · subst hi
      refine .of_event (.injected i) rfl (if_pos rfl) rfl ⟨h.disposition, ?_, h.dispatching⟩
      have hends := h.ends
      simp only [State.record, List.count_append, List.count_singleton_self]
      simp only [State.holders] at hends ⊢
      omega
    · exact h.of_same [.injected i] rfl (by simp [Event.occurrence, hi]) rfl
        (by simp [State.record, State.holders, hi]; rfl) rfl
  | @cancelled i =>
    by_cases hi : i = id
    · subst hi
      refine .of_event (.cancelled i) rfl (if_pos rfl) rfl ⟨?_, h.ends, h.dispatching⟩
      simp [State.record]
    · exact h.of_same [.cancelled i] rfl (by simp [Event.occurrence, hi])
        (by simp [State.record, PMap.erase_of_ne _ (Ne.symm hi)]) rfl rfl
  | @cancelledConnection conn =>
    by_cases hconn : conn = id.1
    · refine .of_event (.cancelledConnection conn) rfl (if_pos hconn) rfl ⟨?_, h.ends, h.dispatching⟩
      simp [State.record, hconn]
    · exact h.of_same [.cancelledConnection conn] rfl (by simp [Event.occurrence, hconn])
        (by simp [State.record, Ne.symm hconn]) rfl rfl
  | @received i verdict rest slot free queued found =>
    by_cases hi : i = id
    · subst hi
      refine .of_event (.received i verdict) rfl (if_pos rfl) rfl ⟨?_, h.ends, h.dispatching⟩
      simp [h.disposition, found]
    · exact h.of_same [.received i verdict] rfl (by simp [Event.occurrence, hi])
        (by simp [PMap.insert_of_ne _ _ (Ne.symm hi)]) rfl rfl
  | @unknown i verdict rest free queued absent =>
    by_cases hi : i = id
    · subst hi
      refine .of_event (.received i verdict) rfl (if_pos rfl) rfl ⟨?_, h.ends, h.dispatching⟩
      simp [State.record, h.disposition, absent]
    · exact h.of_same [.received i verdict] rfl (by simp [Event.occurrence, hi]) rfl rfl rfl
  | @picked w i rest at_ queued =>
    refine h.of_worker w (.holding i) [] rfl (List.append_nil _).symm (by simp) rfl ?_
      (by simp [at_, RegPc.takes])
    by_cases hi : i = id <;> simp [State.setWorker, at_, queued, RegPc.injection, hi]
  | @taken w i born at_ ready =>
    by_cases hi : i = id
    · subst hi
      have hw : (s.workers w).injection = some i := by rw [at_]; rfl
      obtain ⟨hpos, hused⟩ := h.ends_used (t := ({ s with signal := s.signal.erase i }.setWorker w
        (.taken i born s.log.length)).record (.taken i born w)) hw rfl rfl rfl
      have hlt : s.takers i < Fintype.card ω := takers_lt (w := w) (by simp [at_, RegPc.takes])
      refine .of_event (.taken i born w) rfl (if_pos rfl) (guarded_eq_some_iff.mpr
        ⟨⟨by simp [h.disposition, ready], hpos, h.dispatching ▸ hlt⟩, rfl⟩) ⟨?_, hused, ?_⟩
      · simp [State.record, State.setWorker]
      · have htaking := setWorker_takers s w (.taken i born s.log.length) i
        simp only [at_, RegPc.takes, reduceCtorEq, decide_false, decide_true, Bool.toNat_false,
          Bool.toNat_true, h.dispatching] at htaking ⊢
        exact htaking.symm
    · exact h.of_worker w _ [.taken i born w] rfl rfl (by simp [Event.occurrence, hi])
        (by simp [State.record, State.setWorker, PMap.erase_of_ne _ (Ne.symm hi)])
        (by simp [State.record, State.setWorker, at_, RegPc.injection, hi])
        (by simp [at_, RegPc.takes, hi])
  | @rejected w i born at_ rejected =>
    by_cases hi : i = id
    · subst hi
      have hw : (s.workers w).injection = some i := by rw [at_]; rfl
      obtain ⟨hpos, hused⟩ := h.ends_used (t := ({ s with signal := s.signal.erase i }.setWorker w
        (.rejecting i)).record (.rejected i born)) hw rfl rfl rfl
      have hlt : s.takers i < Fintype.card ω := takers_lt (w := w) (by simp [at_, RegPc.takes])
      refine .of_event (.rejected i born) rfl (if_pos rfl) (guarded_eq_some_iff.mpr
        ⟨⟨by simp [h.disposition, rejected], hpos, h.dispatching ▸ hlt⟩, rfl⟩) ⟨?_, hused, ?_⟩
      · simp [State.record, State.setWorker]
      · exact h.dispatching.trans (takers_moved w (.rejecting i) (by simp [at_, RegPc.takes])
          (by simp [RegPc.takes]) rfl).symm
    · exact h.of_worker w _ [.rejected i born] rfl rfl (by simp [Event.occurrence, hi])
        (by simp [State.record, State.setWorker, PMap.erase_of_ne _ (Ne.symm hi)])
        (by simp [State.record, State.setWorker, at_, RegPc.injection, hi])
        (by simp [at_, RegPc.takes])
  | @missed w i at_ =>
    exact h.of_worker w (.missed i) [] rfl (List.append_nil _).symm (by simp) rfl
      (by simp [State.setWorker, at_, RegPc.injection]) (by simp [at_, RegPc.takes])
  | @retried w i at_ =>
    exact h.of_worker w (.requeueing i) [] rfl (List.append_nil _).symm (by simp) rfl
      (by simp [State.setWorker, at_, RegPc.injection]) (by simp [at_, RegPc.takes])
  | @dropped w i at_ absent =>
    by_cases hi : i = id
    · subst hi
      have hw : (s.workers w).injection = some i := by rw [at_]; rfl
      obtain ⟨hpos, hused⟩ := h.ends_used (t := (s.setWorker w .idle).record (.dropped i)) hw rfl rfl rfl
      have hlt : s.takers i < Fintype.card ω := takers_lt (w := w) (by simp [at_, RegPc.takes])
      refine .of_event (.dropped i) rfl (if_pos rfl) (guarded_eq_some_iff.mpr
        ⟨⟨by simp [h.disposition, absent], hpos, h.dispatching ▸ hlt⟩, rfl⟩) ⟨h.disposition, hused, ?_⟩
      exact h.dispatching.trans (takers_moved w .idle (by simp [at_, RegPc.takes])
        (by simp [RegPc.takes]) rfl).symm
    · exact h.of_worker w .idle [.dropped i] rfl rfl (by simp [Event.occurrence, hi]) rfl
        (by simp [State.record, State.setWorker, at_, RegPc.injection, hi]) (by simp [at_, RegPc.takes])
  | @requeued w i at_ =>
    refine h.of_worker w .idle [] rfl (List.append_nil _).symm (by simp) rfl ?_ (by simp [at_, RegPc.takes])
    by_cases hi : i = id <;> simp [State.setWorker, at_, RegPc.injection, hi]
  | @prepared w i born taken record take at_ found => exact h.prepares at_ rfl rfl rfl rfl rfl rfl
  | @preparedEmpty w i born taken take at_ absent => exact h.prepares at_ rfl rfl rfl rfl rfl rfl
  | @cleaned w i at_ =>
    exact h.of_worker w (.responding i) [] rfl (List.append_nil _).symm (by simp) rfl
      (by simp [State.setWorker, at_, RegPc.injection]) (by simp [at_, RegPc.takes])
  | @ended w i at_ | @discardedRejected w i at_ =>
    exact h.of_worker w .idle [] rfl (List.append_nil _).symm (by simp) rfl
      (by simp [State.setWorker, at_, RegPc.injection]) (by simp [at_, RegPc.takes])

/-- The protocol keeps to the life of each request. -/
theorem refines (id : ReqId) : Refines (Dispatch.step (ρ := ρ) (ω := ω))
    (Lifecycle.next (Fintype.card ω)) (State.history id) (Shows id) where
  step _ _ _ _ h hstep := h.step hstep

/-! ## Whatever may happen does -/

/-- Between two occurrences of the request nothing else is under way. -/
structure Quiet (id : ReqId) (l : Lifecycle) (s : State ρ ω) : Prop where
  shows_ : Shows id l s
  verdicts : s.verdicts = []
  receiver : s.receiver = none
  injections : s.injections = List.replicate l.ends id
  workers : ∀ w, s.workers w = .idle ∨ ∃ born taken, s.workers w = .taken id born taken
  jobs : s.jobs 0 = none
  net : s.net = .idle

omit [DecidableEq ω] in
theorem quiet_init (id : ReqId) : Quiet id {} ({} : State ρ ω) where
  shows_ := ⟨rfl, by simp [State.holders, RegPc.injection], by simp [State.takers, RegPc.takes]⟩
  verdicts := rfl
  receiver := rfl
  injections := rfl
  workers _ := .inl rfl
  jobs := rfl
  net := rfl

namespace Quiet

omit [DecidableEq ω] in
/-- A worker of the pool that is not dispatching is free. -/
theorem exists_idle (h : Quiet id l s) (hlt : l.dispatching < Fintype.card ω) : ∃ w, s.workers w = .idle := by
  by_contra hbusy
  have hall : ∀ w, (decide ((s.workers w).takes = some id)).toNat = 1 := by
    intro w
    rcases h.workers w with hidle | ⟨born, taken, hw⟩
    · exact absurd ⟨w, hidle⟩ hbusy
    · simp [hw, RegPc.takes]
  have htakers := h.shows_.dispatching
  simp only [State.takers, hall, Finset.sum_const, Finset.card_univ, smul_eq_mul, Nat.mul_one] at htakers
  omega

omit [DecidableEq ω] in
theorem exists_taken (h : Quiet id l s) (hpos : 0 < l.dispatching) :
    ∃ w born taken, s.workers w = .taken id born taken := by
  rw [h.shows_.dispatching] at hpos
  obtain ⟨w, -, hw⟩ := Finset.exists_ne_zero_of_sum_ne_zero (Nat.pos_iff_ne_zero.mp hpos)
  rcases h.workers w with hidle | ⟨born, taken, hw'⟩
  · simp [hidle, RegPc.takes] at hw
  · exact ⟨w, born, taken, hw'⟩

omit [DecidableEq ω] in
theorem signal_none (h : Quiet id l s) (hdisposition : l.disposition = none) : s.signal id = none := by
  have hshows := h.shows_.disposition
  rw [hdisposition] at hshows
  exact Option.map_eq_none_iff.mp hshows.symm

omit [DecidableEq ω] in
theorem signal_some (h : Quiet id l s) {disposition : RequestDisposition}
    (hdisposition : l.disposition = some disposition) : ∃ born, s.signal id = some ⟨disposition, born⟩ := by
  have hshows := h.shows_.disposition
  rw [hdisposition] at hshows
  obtain ⟨slot, hslot, rfl⟩ := Option.map_eq_some_iff.mp hshows.symm
  exact ⟨slot.born, hslot⟩

/-- The steps that bring `k` about are matched by it. -/
theorem brought (h : Quiet id l s) {k : Occurrence} {l' : Lifecycle}
    (hnext : l.next (Fintype.card ω) k = some l') {as : List (Action ρ ω)}
    (hrun : exec Dispatch.step s as = some t) (hlog : t.history id = s.history id ++ [k])
    (hquiet : Shows id l' t → Quiet id l' t) :
    ∃ as t, exec Dispatch.step s as = some t ∧ t.history id = s.history id ++ [k] ∧ Quiet id l' t :=
  ⟨as, t, hrun, hlog, hquiet ((refines id).shows_of_history h.shows_ hrun hlog (by simp [hnext]))⟩

theorem created (h : Quiet id l s) {l' : Lifecycle} (hnext : l.next (Fintype.card ω) .created = some l') :
    ∃ as t, exec Dispatch.step s as = some t ∧ t.history id = s.history id ++ [.created] ∧
      Quiet (ρ := ρ) id l' t := by
  obtain ⟨hnone, rfl⟩ := guarded_eq_some_iff.mp hnext
  have hsignal := h.signal_none hnone
  have hrun : exec Dispatch.step s [.begin id] = some (State.record { s with
      begun := Function.update s.begun id true
      signal := s.signal.insert id ⟨.pending, s.log.length⟩ } (.created id)) := by
    simp [Dispatch.step, guarded, h.net, hsignal]
  refine h.brought hnext hrun (by simp [State.history, State.record, Event.occurrence]) fun hshows => ?_
  exact ⟨hshows, h.verdicts, h.receiver, h.injections, h.workers, h.jobs, h.net⟩

theorem received (h : Quiet id l s) (verdict : Verdict) {l' : Lifecycle}
    (hnext : l.next (Fintype.card ω) (.received verdict) = some l') :
    ∃ as t, exec Dispatch.step s as = some t ∧ t.history id = s.history id ++ [.received verdict] ∧
      Quiet (ρ := ρ) id l' t := by
  have hends : l'.ends = l.ends := by
    cases hnext
    rfl
  cases hdisposition : l.disposition with
  | none =>
    have hsignal := h.signal_none hdisposition
    have hrun : exec Dispatch.step s [.startJob 0 id, .jobVerdict 0 verdict, .receive, .receiverDiscard] =
        some { State.record { s with jobs := (s.jobs.insert 0 id).erase 0, verdicts := [] }
          (.received id verdict) with table := s.table.erase id, receiver := none } := by
      simp [Dispatch.step, guarded, h.net, h.jobs, h.verdicts, h.receiver, hsignal, State.record]
    refine h.brought hnext hrun
      (by simp [State.history, State.record, Event.occurrence]) fun hshows => ?_
    exact ⟨hshows, rfl, rfl, hends ▸ h.injections, h.workers, PMap.erase_self (s.jobs.insert 0 id) 0, h.net⟩
  | some disposition =>
    obtain ⟨born, hsignal⟩ := h.signal_some hdisposition
    have hrun : exec Dispatch.step s [.startJob 0 id, .jobVerdict 0 verdict, .receive] =
        some { State.record { s with jobs := (s.jobs.insert 0 id).erase 0, verdicts := [] }
          (.received id verdict) with signal := s.signal.insert id ⟨verdict.disposition, born⟩ } := by
      simp [Dispatch.step, guarded, h.net, h.jobs, h.verdicts, h.receiver, hsignal, State.record]
    refine h.brought hnext hrun
      (by simp [State.history, State.record, Event.occurrence]) fun hshows => ?_
    exact ⟨hshows, rfl, h.receiver, hends ▸ h.injections, h.workers,
      PMap.erase_self (s.jobs.insert 0 id) 0, h.net⟩

theorem injected (h : Quiet id l s) {l' : Lifecycle} (hnext : l.next (Fintype.card ω) .injected = some l') :
    ∃ as t, exec Dispatch.step s as = some t ∧ t.history id = s.history id ++ [.injected] ∧
      Quiet (ρ := ρ) id l' t := by
  cases hnext
  have hrun : exec Dispatch.step s [.finish id] = some (State.record { s with
      injections := s.injections ++ [id]
      ended := Function.update s.ended id true } (.injected id)) := by
    simp [Dispatch.step, guarded, h.net]
  refine h.brought (k := .injected) rfl hrun
    (by simp [State.history, State.record, Event.occurrence]) fun hshows => ?_
  refine ⟨hshows, h.verdicts, h.receiver, ?_, h.workers, h.jobs, h.net⟩
  rw [List.replicate_succ', ← h.injections]
  rfl

theorem cancelled (h : Quiet id l s) {l' : Lifecycle} (hnext : l.next (Fintype.card ω) .cancelled = some l') :
    ∃ as t, exec Dispatch.step s as = some t ∧ t.history id = s.history id ++ [.cancelled] ∧
      Quiet (ρ := ρ) id l' t := by
  cases hnext
  have hrun : exec Dispatch.step s [.cancelRequest id, .discard] = some { State.record { s with
      signal := s.signal.erase id
      net := .discarding id
      ended := Function.update s.ended id true } (.cancelled id) with
      table := s.table.erase id, net := .idle } := by
    simp [Dispatch.step, guarded, h.net, State.record]
  refine h.brought (k := .cancelled) rfl hrun
    (by simp [State.history, State.record, Event.occurrence]) fun hshows => ?_
  exact ⟨hshows, h.verdicts, h.receiver, h.injections, h.workers, h.jobs, rfl⟩

omit [Fintype ω] in
/-- A worker that is idle or has taken the entry. -/
theorem workers_moved (h : ∀ w, s.workers w = .idle ∨ ∃ born taken, s.workers w = .taken id born taken)
    (w : ω) {pc : RegPc} (hpc : pc = .idle ∨ ∃ born taken, pc = .taken id born taken) (v : ω) :
    Function.update s.workers w pc v = .idle ∨
      ∃ born taken, Function.update s.workers w pc v = .taken id born taken := by
  by_cases hv : v = w
  · subst hv
    simpa using hpc
  · simpa [hv] using h v

omit [DecidableEq ω] in
theorem injections_cons (h : Quiet id l s) (hpos : 0 < l.ends) :
    s.injections = id :: List.replicate (l.ends - 1) id := by
  rw [h.injections, ← List.replicate_succ, Nat.sub_add_cancel hpos]

theorem taken (h : Quiet id l s) {l' : Lifecycle} (hnext : l.next (Fintype.card ω) .taken = some l') :
    ∃ as t, exec Dispatch.step s as = some t ∧ t.history id = s.history id ++ [.taken] ∧
      Quiet (ρ := ρ) id l' t := by
  obtain ⟨⟨hready, hpos, hlt⟩, rfl⟩ := guarded_eq_some_iff.mp hnext
  obtain ⟨born, hsignal⟩ := h.signal_some hready
  obtain ⟨w, hw⟩ := h.exists_idle hlt
  have hinjections := h.injections_cons hpos
  have hrun : exec Dispatch.step s [.pick w, .removeIf w] = some (({ s with
      injections := List.replicate (l.ends - 1) id
      signal := s.signal.erase id }.setWorker w (.taken id born s.log.length)).record (.taken id born w)) := by
    simp [Dispatch.step, hw, hinjections, hsignal, State.setWorker, State.record]
  refine h.brought hnext hrun
    (by simp [State.history, State.record, State.setWorker, Event.occurrence]) fun hshows => ?_
  exact ⟨hshows, h.verdicts, h.receiver, rfl, workers_moved h.workers w (.inr ⟨_, _, rfl⟩), h.jobs, h.net⟩

theorem rejected (h : Quiet id l s) {l' : Lifecycle} (hnext : l.next (Fintype.card ω) .rejected = some l') :
    ∃ as t, exec Dispatch.step s as = some t ∧ t.history id = s.history id ++ [.rejected] ∧
      Quiet (ρ := ρ) id l' t := by
  obtain ⟨⟨hrejected, hpos, hlt⟩, rfl⟩ := guarded_eq_some_iff.mp hnext
  obtain ⟨born, hsignal⟩ := h.signal_some hrejected
  obtain ⟨w, hw⟩ := h.exists_idle hlt
  have hinjections := h.injections_cons hpos
  have hrun : exec Dispatch.step s [.pick w, .removeIf w, .discardRejected w] = some (({ s with
      injections := List.replicate (l.ends - 1) id
      signal := s.signal.erase id
      table := s.table.erase id }.setWorker w .idle).record (.rejected id born)) := by
    simp [Dispatch.step, hw, hinjections, hsignal, State.setWorker, State.record]
  refine h.brought hnext hrun
    (by simp [State.history, State.record, State.setWorker, Event.occurrence]) fun hshows => ?_
  exact ⟨hshows, h.verdicts, h.receiver, rfl, workers_moved h.workers w (.inl rfl), h.jobs, h.net⟩

theorem dropped (h : Quiet id l s) {l' : Lifecycle} (hnext : l.next (Fintype.card ω) .dropped = some l') :
    ∃ as t, exec Dispatch.step s as = some t ∧ t.history id = s.history id ++ [.dropped] ∧
      Quiet (ρ := ρ) id l' t := by
  obtain ⟨⟨hnone, hpos, hlt⟩, rfl⟩ := guarded_eq_some_iff.mp hnext
  have hsignal := h.signal_none hnone
  obtain ⟨w, hw⟩ := h.exists_idle hlt
  have hinjections := h.injections_cons hpos
  have hrun : exec Dispatch.step s [.pick w, .removeIf w, .containsKey w] = some (({ s with
      injections := List.replicate (l.ends - 1) id }.setWorker w .idle).record (.dropped id)) := by
    simp [Dispatch.step, hw, hinjections, hsignal, State.setWorker, State.record]
  refine h.brought hnext hrun
    (by simp [State.history, State.record, State.setWorker, Event.occurrence]) fun hshows => ?_
  exact ⟨hshows, h.verdicts, h.receiver, rfl, workers_moved h.workers w (.inl rfl), h.jobs, h.net⟩

/-- The record is taken out of the table if there is one. -/
theorem prepared (h : Quiet id l s) {l' : Lifecycle} (hnext : l.next (Fintype.card ω) .prepared = some l') :
    ∃ as t, exec Dispatch.step s as = some t ∧ t.history id = s.history id ++ [.prepared] ∧
      Quiet (ρ := ρ) id l' t := by
  obtain ⟨hpos, rfl⟩ := guarded_eq_some_iff.mp hnext
  obtain ⟨w, born, taken, hw⟩ := h.exists_taken hpos
  cases htable : s.table id with
  | none =>
    have hrun : exec Dispatch.step s [.buildRouteEvent w fun record => record, .endPreparation w] =
        some ((s.record (.prepared id born taken)).setWorker w .idle) := by
      simp [Dispatch.step, hw, htable, State.setWorker, State.record]
    refine h.brought hnext hrun
      (by simp [State.history, State.record, State.setWorker, Event.occurrence]) fun hshows => ?_
    exact ⟨hshows, h.verdicts, h.receiver, h.injections, workers_moved h.workers w (.inl rfl), h.jobs, h.net⟩
  | some record =>
    have hrun : exec Dispatch.step s
        [.buildRouteEvent w fun record => record, .cleanEntry w, .endPreparation w] =
        some (({ s with table := (s.table.insert id record).erase id }.setWorker w .idle).record
          (.prepared id born taken)) := by
      simp [Dispatch.step, hw, htable, State.setWorker, State.record]
    refine h.brought hnext hrun
      (by simp [State.history, State.record, State.setWorker, Event.occurrence]) fun hshows => ?_
    exact ⟨hshows, h.verdicts, h.receiver, h.injections, workers_moved h.workers w (.inl rfl), h.jobs, h.net⟩

end Quiet

theorem realizes (id : ReqId) : Realizes (Dispatch.step (ρ := ρ) (ω := ω))
    (Lifecycle.next (Fintype.card ω)) (State.history id) (Quiet id) where
  bring l s k l' h hnext := by
    cases k with
    | created => exact h.created hnext
    | received verdict => exact h.received verdict hnext
    | injected => exact h.injected hnext
    | taken => exact h.taken hnext
    | rejected => exact h.rejected hnext
    | prepared => exact h.prepared hnext
    | dropped => exact h.dropped hnext
    | cancelled => exact h.cancelled hnext

end Steps

/-- What can happen to a request, in whatever order the threads run and whatever the
other requests do, is just what its life allows. -/
theorem histories_exactly [Fintype ω] [DecidableEq ω] (id : ReqId) (history : List Occurrence) :
    (∃ (run : List (Action ρ ω)) (s : State ρ ω), exec step {} run = some s ∧ s.history id = history) ↔
      (exec (Lifecycle.next (Fintype.card ω)) {} history).isSome :=
  history_iff (refines id) (realizes id) (quiet_init id).shows_ (quiet_init id) rfl

/-- A section that is judged twice and a stream that ends twice: the second end finds
no entry. -/
example : (exec (Lifecycle.next 1) {} [.created, .injected, .injected, .received .rejected,
    .received .ready, .taken, .prepared, .dropped]).isSome := by decide

/-- A rejected request has no response prepared. -/
example : (exec (Lifecycle.next 1) {} [.created, .injected, .received .rejected, .taken]).isSome = false := by
  decide

end FacesHttp3.Dispatch
