import FacesHttp3.Lib.Fairness
import FacesHttp3.Server.Accounting

/-! # Fair schedules

That the threads can come to rest does not say that they do. Here they are scheduled by
anyone who is weakly fair: a thread that can go on is not passed over for ever. Nothing
else is asked of the schedule, and the response workers may try in vain as often as they
are scheduled to. -/

namespace FacesHttp3.Server
open FacesHttp3.Lib FacesHttp3.Lib.Exec FacesHttp3.Request FacesHttp3.Router FacesHttp3.RequestsTable

variable {M H L C W ω : Type}

/-! ## Threads -/

/-- The threads: a section is handled by the header processor, a middleware worker and
the one that answers rejections, one after the other. -/
inductive Thread (ω : Type)
  | network
  | job (number : Nat)
  | receiver
  | worker (w : ω)

/-- Whose step it is; frames from the network are nobody's. -/
def Action.thread : Action L W ω → Option (Thread ω)
  | .processHeader | .dataSet | .dataWrite _ | .protocol .discard => some .network
  | .protocol .receive | .protocol .receiverDiscard => some .receiver
  | .protocol (.pick w) | .protocol (.removeIf w) | .protocol (.containsKey w) | .protocol (.requeue w)
  | .protocol (.cleanEntry w) | .protocol (.discardRejected w) | .buildRouteEvent w _ | .insertQueue w
  | .callHandler w | .endPreparation w => some (.worker w)
  | a => a.number.map .job

def Thread.Moves (thread : Thread ω) (_ : State M H L C W ω) (a : Action L W ω) : Prop :=
  a.thread = some thread

theorem Thread.Moves.delivers {thread : Thread ω} {s : State M H L C W ω} {a : Action L W ω}
    (h : thread.Moves s a) : a.Delivers = false := by
  cases a <;> first | rfl | cases h

open Classical in
/-- A thread other than the response workers that has something to do. -/
noncomputable def urgentOf (network : NetworkPc) (net : Dispatch.NetPc) (jobs : PMap Nat (JobPc M))
    (verdicts : List (ReqId × Dispatch.Verdict)) (receiver : Option ReqId) : Option (Thread ω) :=
  if network ≠ .idle ∨ net ≠ .idle then some .network
  else if h : ∃ number, jobs number ≠ none then some (.job h.choose)
  else if verdicts ≠ [] ∨ receiver ≠ none then some .receiver
  else none

noncomputable def State.urgent (s : State M H L C W ω) : Option (Thread ω) :=
  urgentOf s.network s.shared.net s.jobs s.shared.verdicts s.shared.receiver

open Classical in
/-- A response worker that is at work, if there is one. -/
noncomputable def busiest [Nonempty ω] (workers : ω → Dispatch.RegPc) : ω :=
  if h : ∃ w, workers w ≠ .idle then h.choose else Classical.arbitrary ω

noncomputable def State.helper [Nonempty ω] (s : State M H L C W ω) : Thread ω :=
  s.urgent.getD (.worker (busiest s.shared.workers))

/-- The work, and when only the response workers have any the attempts that are left. -/
noncomputable def State.rank [Fintype ω] (manager : RouteManager M H L C) (s : State M H L C W ω) :
    Nat ×ₗ Nat :=
  toLex (s.work manager, if s.urgent.isSome then 0 else s.shared.attempts)

section Steps
variable [Fintype ω] [DecidableEq ω] {manager : RouteManager M H L C} {config : ServerConfig}
  {form404 : Option ErrorForm} {s t : State M H L C W ω} {a : Action L W ω}

omit [Fintype ω] [DecidableEq ω] in
theorem urgent_eq_none (h : s.urgent = none) : s.network = .idle ∧ s.shared.net = .idle ∧
    (∀ number, s.jobs number = none) ∧ s.shared.verdicts = [] ∧ s.shared.receiver = none := by
  unfold State.urgent urgentOf at h
  split at h
  · cases h
  rename_i hnetwork
  split at h
  · cases h
  rename_i hjobs
  split at h
  · cases h
  rename_i hreceiver
  simp only [not_or, not_not, not_exists] at hnetwork hjobs hreceiver
  exact ⟨hnetwork.1, hnetwork.2, hjobs, hreceiver.1, hreceiver.2⟩

omit [Fintype ω] [DecidableEq ω] in
theorem urgent_congr (hnetwork : t.network = s.network) (hnet : t.shared.net = s.shared.net)
    (hjobs : t.jobs = s.jobs) (hverdicts : t.shared.verdicts = s.shared.verdicts)
    (hreceiver : t.shared.receiver = s.shared.receiver) : t.urgent = s.urgent := by
  rw [State.urgent, hnetwork, hnet, hjobs, hverdicts, hreceiver, State.urgent]

omit [Fintype ω] [DecidableEq ω] in
theorem urgent_ne_worker {thread : Thread ω} (h : s.urgent = some thread) (w : ω) : thread ≠ .worker w := by
  rintro rfl
  unfold State.urgent urgentOf at h
  split at h
  · cases h
  split at h
  · cases h
  split at h <;> cases h

omit [Fintype ω] [DecidableEq ω] in
theorem thread_of_polls {action : Dispatch.Action (PartialReq L W) ω}
    (h : Dispatch.polls s.shared action = true) :
    ∃ w, (Action.protocol action : Action L W ω).thread = some (.worker w) := by
  cases action with
  | pick w | removeIf w | containsKey w | requeue w => exact ⟨w, rfl⟩
  | _ => cases h

omit [Fintype ω] in
/-- An attempt leaves the other threads alone. -/
theorem polls_frame {ρ : Type} {s t : Dispatch.State ρ ω} {a : Dispatch.Action ρ ω}
    (hpolls : Dispatch.polls s a = true) (h : Dispatch.step s a = some t) :
    t.net = s.net ∧ t.verdicts = s.verdicts ∧ t.receiver = s.receiver := by
  cases Dispatch.step_transition h with
  | picked | missed | retried | requeued | taken | rejected | dropped => exact ⟨rfl, rfl, rfl⟩
  | _ => cases hpolls

omit [Fintype ω] [DecidableEq ω] in
/-- Where no other thread has anything to do every entry has its verdict. -/
theorem allDecided_of_urgent (h : Orderly manager s) (hurgent : s.urgent = none) :
    Dispatch.AllDecided s.shared := by
  obtain ⟨hnetwork, -, hjobs, hverdicts, -⟩ := urgent_eq_none hurgent
  exact h.allDecided hnetwork hjobs hverdicts

omit [DecidableEq ω] in
theorem rank_lt_of_work (h : t.work manager < s.work manager) : t.rank manager < s.rank manager :=
  Prod.Lex.toLex_lt_toLex.mpr (.inl h)

/-- An attempt is one less, or other threads have something to do. -/
theorem rank_polls (h : Orderly manager s) {action : Dispatch.Action (PartialReq L W) ω}
    (hpolls : Dispatch.polls s.shared action = true)
    (hstep : step config form404 manager s (.protocol action) = some t) :
    t.rank manager < s.rank manager ∨
      (t.rank manager = s.rank manager ∧ s.urgent.isSome = true ∧ t.urgent = s.urgent) := by
  have hwork := step_work h.gate rfl hstep
  rcases Nat.lt_or_eq_of_le (Nat.le_of_add_right_le hwork) with hlt | heq
  · exact .inl (rank_lt_of_work hlt)
  have hprotocol : Dispatch.step s.shared action = some t.shared ∧ t.network = s.network ∧ t.jobs = s.jobs := by
    cases step_transition hstep with
    | along _ protocol => exact ⟨protocol, rfl, rfl⟩
  obtain ⟨hprotocol, hnetwork, hjobs⟩ := hprotocol
  obtain ⟨hnet, hverdicts, hreceiver⟩ := polls_frame hpolls hprotocol
  have hurgent : t.urgent = s.urgent := urgent_congr hnetwork hnet hjobs hverdicts hreceiver
  cases hsome : s.urgent with
  | some thread => exact .inr ⟨by simp [State.rank, heq, hurgent, hsome], rfl, hurgent.trans hsome⟩
  | none =>
    left
    refine Prod.Lex.toLex_lt_toLex.mpr (.inr ⟨heq, ?_⟩)
    simpa [hurgent, hsome] using Dispatch.attempts_step (allDecided_of_urgent h hsome) hpolls hprotocol

/-- A step brings the rank down, unless it is an attempt while other threads have
something to do. -/
theorem rank_step [Nonempty ω] (h : Orderly manager s) (hdelivers : a.Delivers = false)
    (hstep : step config form404 manager s a = some t) : t.rank manager < s.rank manager ∨
      (t.rank manager = s.rank manager ∧ t.helper = s.helper ∧ ¬ s.helper.Moves s a) := by
  have hwork := step_work h.gate hdelivers hstep
  cases hpolls : polls s a with
  | false =>
    rw [hpolls] at hwork
    exact .inl (rank_lt_of_work hwork)
  | true =>
    cases a with
    | protocol action =>
      rcases rank_polls h hpolls hstep with hlt | ⟨hrank, hsome, hurgent⟩
      · exact .inl hlt
      · obtain ⟨thread, hthread⟩ := Option.isSome_iff_exists.mp hsome
        refine .inr ⟨hrank, by simp [State.helper, hurgent, hthread], ?_⟩
        obtain ⟨w, hworker⟩ := thread_of_polls hpolls
        intro hhelper
        rw [Thread.Moves, hworker, State.helper, hthread] at hhelper
        exact urgent_ne_worker hthread w (Option.some.inj hhelper).symm
    | _ => cases hpolls

/-! ## Something can be done -/

omit [Fintype ω] in
/-- A worker that is at work can go on. -/
theorem worker_enabled (h : Orderly manager s) {w : ω} (hbusy : s.shared.workers w ≠ .idle) :
    Enabled (step config form404 manager) Thread.Moves (.worker w) s := by
  have hprotocol : ∀ action : Dispatch.Action (PartialReq L W) ω, Internal action = true →
      (Action.protocol action : Action L W ω).thread = some (.worker w) →
      (Dispatch.step s.shared action).isSome = true →
      Enabled (step config form404 manager) Thread.Moves (.worker w) s := by
    intro action hinternal hthread hstep
    refine ⟨.protocol action, hthread, ?_⟩
    simpa [step, hinternal, State.along] using hstep
  cases hpc : s.shared.workers w with
  | idle => exact absurd hpc hbusy
  | holding id =>
    refine hprotocol (.removeIf w) rfl rfl ?_
    simp only [Dispatch.step, hpc]
    split <;> rfl
  | missed id =>
    refine hprotocol (.containsKey w) rfl rfl ?_
    simp only [Dispatch.step, hpc]
    split <;> rfl
  | requeueing id => exact hprotocol (.requeue w) rfl rfl (by simp [Dispatch.step, hpc])
  | cleaning id => exact hprotocol (.cleanEntry w) rfl rfl (by simp [Dispatch.step, hpc])
  | rejecting id => exact hprotocol (.discardRejected w) rfl rfl (by simp [Dispatch.step, hpc])
  | taken id born taken =>
    refine ⟨.buildRouteEvent w [], rfl, ?_⟩
    cases htable : s.shared.table id <;>
      simp [step, State.along, Dispatch.step, Dispatch.State.record, hpc, htable]
  | responding id =>
    rcases h.responder_enabled config form404 hpc with hnext | hnext | hnext
    · exact ⟨.insertQueue w, rfl, hnext⟩
    · exact ⟨.callHandler w, rfl, hnext⟩
    · exact ⟨.endPreparation w, rfl, hnext⟩

end Steps

end FacesHttp3.Server
