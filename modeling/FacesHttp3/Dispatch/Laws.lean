import FacesHttp3.Dispatch.Records

/-! # The laws of the protocol

What holds of every run of the dispatch protocol, whatever the order of its
threads. -/

namespace FacesHttp3.Dispatch
open FacesHttp3.Lib FacesHttp3.Lib.Exec FacesHttp3.Lib.History FacesHttp3.Request

variable {ρ ω : Type} [DecidableEq ω]

/-- No middleware job, verdict or registration of the request is in flight. -/
structure NoWork (s : State ρ ω) (id : ReqId) : Prop where
  job : ∀ job, s.jobs job ≠ some id
  verdict : ∀ verdict, (id, verdict) ∉ s.verdicts
  receiver : s.receiver ≠ some id
  worker : ∀ w, (s.workers w).request ≠ some id

omit [DecidableEq ω] in
theorem RegPc.request_of_consuming {pc : RegPc} {id : ReqId} (h : pc.consuming = some id) :
    pc.request = some id := by
  cases pc <;> first | exact h | cases h

/-- A preparation runs once for the entry it consumed, after a Ready verdict. -/
structure PreparationLaws (log : List (Event ω)) : Prop where
  once : ∀ p p' id b q q', At log p (.prepared id b q) → At log p' (.prepared id b q') → p = p'
  created : ∀ p id b q, At log p (.prepared id b q) → At log b (.created id) ∧
    ∃ r, b < r ∧ r < p ∧ At log r (.received id .ready)

/-- An injection is dropped only when no entry stands: whatever created one was
consumed or cancelled before. -/
def DroppedWithoutEntry (log : List (Event ω)) : Prop :=
  ∀ p id b, At log p (.dropped id) → At log b (.created id) → b < p →
    ∃ q e, b < q ∧ q < p ∧ At log q e ∧ e.Removes id

/-- An entry whose request was finished since its creation still has an injection. -/
def NoLostInjection (s : State ρ ω) : Prop :=
  ∀ id slot p, s.signal id = some slot → At s.log p (.injected id) → slot.born < p →
    InjectionPending s id

/-- What the protocol guarantees of any run. A cancellation does not stop a
preparation whose entry a response worker had consumed before it, and a record
may outlive its entry while a cancellation is between the two tables. -/
structure ProtocolLaws (s : State ρ ω) : Prop where
  preparation : PreparationLaws s.log
  cancelled : ∀ p id b q, At s.log p (.prepared id b q) →
    (q < p ∧ ∃ w, At s.log q (.taken id b w)) ∧
      ∀ c e, At s.log c e → e.Cancels id → c < p → c < b ∨ q < c
  dropped : DroppedWithoutEntry s.log
  injections : NoLostInjection s
  leftover : ∀ id, s.signal id = none → NoWork s id → ¬ s.net.Cancels id → s.table id = none

/-- No preparation of a cancelled request before it is begun again. -/
def NoPreparationAfterCancel (log : List (Event ω)) : Prop :=
  ∀ p id b q c e, At log p (.prepared id b q) → At log c e → e.Cancels id → c < p →
    ∃ k, c < k ∧ k < p ∧ At log k (.created id)

/-- No record without an entry or work in flight. -/
def NoLeftover (s : State ρ ω) : Prop :=
  ∀ id, s.signal id = none → NoWork s id → s.table id = none

/-- The laws with no regard to a cancellation that meets a running registration
or is itself unfinished. -/
structure StrictLaws (s : State ρ ω) : Prop where
  preparation : PreparationLaws s.log
  cancelled : NoPreparationAfterCancel s.log
  dropped : DroppedWithoutEntry s.log
  injections : NoLostInjection s
  leftover : NoLeftover s

theorem protocol_laws {s : State ρ ω} {as : List (Action ρ ω)}
    (run : exec step {} as = some s) : ProtocolLaws s := by
  have he := entryInv_run run
  refine ⟨⟨?_, ?_⟩, ?_, he.dropped_absent, (injectionInv_run run).live, ?_⟩
  · intro p p' id b q q' hp hp'
    obtain ⟨-, w, hw⟩ := he.prepared_taken p id b q hp
    obtain ⟨-, w', hw'⟩ := he.prepared_taken p' id b q' hp'
    obtain rfl := he.taken_once hw hw'
    exact he.prepared_once p p' id b id b q hp hp'
  · intro p id b q hp
    obtain ⟨hqp, w, hw⟩ := he.prepared_taken p id b q hp
    obtain ⟨r, hbr, hrq, hr⟩ := he.taken_ready q id b w hw
    exact ⟨(he.taken_created q id b w hw).2, r, hbr, Nat.lt_trans hrq hqp, hr⟩
  · intro p id b q hp
    obtain ⟨hqp, w, hw⟩ := he.prepared_taken p id b q hp
    refine ⟨⟨hqp, w, hw⟩, fun c e hc hcancel _ => ?_⟩
    by_contra hbetween
    obtain ⟨hbc, hcq⟩ := not_or.mp hbetween
    have hb := (he.taken_created q id b w hw).2
    rcases Nat.lt_or_eq_of_le (Nat.le_of_not_lt hbc) with hbc | rfl
    · rcases Nat.lt_or_eq_of_le (Nat.le_of_not_lt hcq) with hcq | rfl
      · exact he.taken_clear q id b w c e hw hc hbc hcq hcancel.removes
      · cases hw.unique hc
        exact hcancel
    · cases hb.unique hc
      exact hcancel
  · intro id hs hwork hnet
    by_contra ht
    cases (tableInv_run run).owned id ht with
    | entry h => exact h hs
    | job j h => exact hwork.job j h
    | verdict v h => exact hwork.verdict v h
    | receiver h => exact hwork.receiver h
    | worker w h => exact hwork.worker w (RegPc.request_of_consuming h)
    | net h => exact hnet h

/-- A whole request: headers, a body packet, a job that writes and continues, the
end of the request, and its response. -/
def servedRequest : List (Action Nat Unit) :=
  [.begin ("c", 0), .startJob 0 ("c", 0), .data ("c", 0) fun _ => some 1,
    .jobWrite 0 (Option.map (· + 1)), .jobVerdict 0 .ready, .receive, .finish ("c", 0), .pick (),
    .removeIf (), .buildRouteEvent () id, .cleanEntry (), .endPreparation ()]

theorem protocol_laws_servedRequest :
    ∃ s, exec step {} servedRequest = some s ∧ ProtocolLaws s :=
  ⟨_, rfl, protocol_laws (show exec step {} servedRequest = some _ from rfl)⟩

/-- A registration consumes the entry, the request is begun again and cancelled,
and the preparation of the first entry runs afterwards. -/
def overtakenCancel : List (Action Nat Unit) :=
  [.begin ("c", 0), .startJob 0 ("c", 0), .jobVerdict 0 .ready, .receive, .finish ("c", 0), .pick (),
    .removeIf (), .begin ("c", 0), .cancelRequest ("c", 0), .discard, .buildRouteEvent () id]

/-- A cancellation that has not reached the request table yet. -/
def unfinishedCancel : List (Action Nat Unit) :=
  [.begin ("c", 0), .data ("c", 0) fun _ => some 1, .cancelRequest ("c", 0)]

/-- The strict laws fail in both respects: a preparation runs after the
cancellation that follows the last creation, and a record is left while nothing
else of its request is in flight. -/
theorem strict_laws_fail :
    (∃ s, exec step {} overtakenCancel = some s ∧ ¬ NoPreparationAfterCancel s.log) ∧
    (∃ s, exec step {} unfinishedCancel = some s ∧ ¬ NoLeftover s) ∧
    ¬ ∀ (as : List (Action Nat Unit)) s, exec step {} as = some s → StrictLaws s := by
  have hprep : ∃ s, exec step {} overtakenCancel = some s ∧
      ¬ NoPreparationAfterCancel s.log := by
    refine ⟨_, rfl, fun h => ?_⟩
    obtain ⟨k, hck, hkp, -⟩ := h 6 ("c", 0) 0 3 5 (.cancelled ("c", 0)) rfl rfl rfl (by omega)
    omega
  refine ⟨hprep, ⟨_, rfl, fun h => ?_⟩, fun h => ?_⟩
  · have hleft := h ("c", 0) rfl ⟨fun _ h => (by cases h), fun _ h => (by cases h),
      fun h => (by cases h), fun _ h => (by cases h)⟩
    cases hleft
  · obtain ⟨s, hs, hfail⟩ := hprep
    exact hfail (h overtakenCancel s hs).cancelled

end FacesHttp3.Dispatch
