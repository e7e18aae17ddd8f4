import FacesHttp3.Dispatch.Injections

/-! # Records of the request table

Every record has an owner: an entry, or a thread on its way to the record. -/

namespace FacesHttp3.Dispatch
open FacesHttp3.Lib FacesHttp3.Lib.Exec FacesHttp3.Lib.History FacesHttp3.Request

variable {ρ ω : Type} [DecidableEq ω]

/-- Someone will still look at the record of `id`. -/
inductive Owner (s : State ρ ω) (id : ReqId) : Prop
  | entry (h : s.signal id ≠ none)
  | job (job : Nat) (h : s.jobs job = some id)
  | verdict (verdict : Verdict) (h : (id, verdict) ∈ s.verdicts)
  | receiver (h : s.receiver = some id)
  | worker (w : ω) (h : (s.workers w).consuming = some id)
  | net (h : s.net.Cancels id)

omit [DecidableEq ω] in
/-- Whoever looks at a record of `id` still does after the step. -/
structure Keeps (s t : State ρ ω) (id : ReqId) : Prop where
  entry : s.signal id ≠ none → t.signal id ≠ none
  job : ∀ job, s.jobs job = some id → t.jobs job = some id
  verdict : ∀ verdict, (id, verdict) ∈ s.verdicts → (id, verdict) ∈ t.verdicts
  receiver : s.receiver = some id → t.receiver = some id
  worker : ∀ w, (s.workers w).consuming = some id → (t.workers w).consuming = some id
  net : s.net.Cancels id → t.net.Cancels id

omit [DecidableEq ω] in
theorem Owner.keep {s t : State ρ ω} {id : ReqId} (h : Owner s id) (keeps : Keeps s t id) :
    Owner t id := by
  cases h with
  | entry h => exact .entry (keeps.entry h)
  | job job h => exact .job job (keeps.job job h)
  | verdict verdict h => exact .verdict verdict (keeps.verdict verdict h)
  | receiver h => exact .receiver (keeps.receiver h)
  | worker w h => exact .worker w (keeps.worker w h)
  | net h => exact .net (keeps.net h)

omit [DecidableEq ω] in
theorem Keeps.refl (s : State ρ ω) (id : ReqId) : Keeps s s id :=
  ⟨fun h => h, fun _ h => h, fun _ h => h, fun h => h, fun _ h => h, fun h => h⟩

/-- A worker that moves keeps what it consumed, or consumed nothing of `id`. -/
theorem consuming_moved {s t : State ρ ω} {id : ReqId} {w : ω} {pc : RegPc}
    (workers : t.workers = Function.update s.workers w pc)
    (hpc : (s.workers w).consuming = some id → pc.consuming = some id) (v : ω)
    (hv : (s.workers v).consuming = some id) : (t.workers v).consuming = some id := by
  rw [workers, Function.update_apply]
  split
  · subst v
    exact hpc hv
  · exact hv

/-- A request that body packets may still be written for has its entry, and every
record has an owner. -/
structure TableInv (s : State ρ ω) : Prop where
  open_entry : ∀ id, s.begun id = true → s.ended id ≠ true → s.signal id ≠ none
  owned : ∀ id, s.table id ≠ none → Owner s id

/-- No entry disappears before its request ended. -/
theorem open_entry_step {s t : State ρ ω} {a : Action ρ ω} (h : TableInv s)
    (hinj : InjectionInv s) (hstep : step s a = some t) :
    ∀ id, t.begun id = true → t.ended id ≠ true → t.signal id ≠ none := by
  intro id
  have hs := h.open_entry id
  -- only an injection lets a worker consume the entry
  have herase : ∀ {w : ω} {i : ReqId}, s.workers w = .holding i → s.begun id = true →
      s.ended id ≠ true → s.signal.erase i id ≠ none := by
    intro w i hw
    rw [PMap.erase_apply]
    split
    · subst id
      exact fun _ he => absurd (hinj.ended i (.inr ⟨w, by rw [hw]; rfl⟩)) he
    · exact hs
  cases step_transition hstep with
  | data | discarded | discardedConnection | started | wrote | judged | unknown | receiverDiscarded
  | picked | missed | retried | dropped | requeued | prepared | preparedEmpty | cleaned | ended
  | discardedRejected => exact hs
  | begun _ found =>
    simp only [Function.update_apply]
    split
    · subst id
      exact fun _ _ => found
    · exact hs
  | created =>
    simp only [State.record, Function.update_apply, PMap.insert_apply]
    split
    · simp
    · exact hs
  | finished =>
    simp only [State.record, Function.update_apply]
    split
    · exact fun _ he => absurd rfl he
    · exact hs
  | cancelled =>
    simp only [State.record, Function.update_apply, PMap.erase_apply]
    split
    · exact fun _ he => absurd rfl he
    · exact hs
  | @cancelledConnection conn =>
    by_cases hc : id.1 = conn
    · exact fun _ he => absurd (by simp [State.record, hc]) he
    · simpa [State.record, hc] using hs
  | received =>
    simp only [PMap.insert_apply]
    split
    · simp
    · exact hs
  | taken at_ | rejected at_ => exact herase at_

omit [DecidableEq ω] in
/-- The record that is left is not the one that was removed. -/
theorem ne_of_erase {table : PMap ReqId ρ} {i id : ReqId} (h : table.erase i id ≠ none) :
    id ≠ i ∧ table id ≠ none := by
  rw [PMap.erase_apply] at h
  split at h
  · exact absurd rfl h
  · exact ⟨‹_›, h⟩

/-- Whoever lets go of a record has removed it or found none. -/
theorem owned_step {s t : State ρ ω} {a : Action ρ ω} (h : TableInv s)
    (hstep : step s a = some t) : ∀ id, t.table id ≠ none → Owner t id := by
  intro id ht
  have hrefl := Keeps.refl s id
  cases step_transition hstep with
  | begun | finished => exact (h.owned id ht).keep { hrefl with }
  | created =>
    refine (h.owned id ht).keep { hrefl with entry := ?_ }
    simp only [State.record, PMap.insert_apply]
    split <;> simp
  | @data i write _ begun going =>
    by_cases hi : id = i
    · subst hi
      exact .entry (h.open_entry id begun going)
    · rw [write_table_of_ne hi] at ht
      exact (h.owned id ht).keep { hrefl with }
  | @cancelled i idle =>
    by_cases hi : i = id
    · exact .net hi
    · refine (h.owned id ht).keep { hrefl with entry := ?_, net := ?_ }
      · simp [State.record, PMap.erase_of_ne _ (Ne.symm hi)]
      · simp [idle, NetPc.Cancels]
  | @cancelledConnection conn idle =>
    by_cases hi : conn = id.1
    · exact .net hi
    · refine (h.owned id ht).keep { hrefl with entry := ?_, net := ?_ }
      · simp [State.record, Ne.symm hi]
      · simp [idle, NetPc.Cancels]
  | @discarded i net =>
    obtain ⟨hi, ht⟩ := ne_of_erase ht
    refine (h.owned id ht).keep { hrefl with net := ?_ }
    simpa [net, NetPc.Cancels] using Ne.symm hi
  | @discardedConnection conn net =>
    by_cases hi : conn = id.1
    · simp [hi] at ht
    · have ht : s.table id ≠ none := by simpa [Ne.symm hi] using ht
      refine (h.owned id ht).keep { hrefl with net := ?_ }
      simpa [net, NetPc.Cancels] using hi
  | @started job i _ free =>
    refine (h.owned id ht).keep { hrefl with job := fun j hj => ?_ }
    change s.jobs.insert job i j = some id
    rwa [PMap.insert_of_ne]
    rintro rfl
    simp [free] at hj
  | @wrote job i write held =>
    by_cases hi : id = i
    · subst hi
      exact .job job held
    · rw [write_table_of_ne hi] at ht
      exact (h.owned id ht).keep { hrefl with }
  | @judged job i verdict held =>
    by_cases hi : id = i
    · subst hi
      exact .verdict verdict (List.mem_append_right _ List.mem_cons_self)
    · refine (h.owned id ht).keep
        { hrefl with job := fun j hj => ?_, verdict := fun _ hv => List.mem_append_left _ hv }
      change s.jobs.erase job j = some id
      rwa [PMap.erase_of_ne]
      rintro rfl
      rw [held] at hj
      exact hi (Option.some.inj hj).symm
  | @received i verdict rest slot _ queued =>
    by_cases hi : id = i
    · subst hi
      exact .entry (by simp)
    · refine (h.owned id ht).keep { hrefl with entry := ?_, verdict := fun v hv => ?_ }
      · simp [PMap.insert_of_ne _ _ hi]
      · rw [queued] at hv
        simpa [State.record, hi] using hv
  | @unknown i verdict rest free queued =>
    by_cases hi : id = i
    · subst hi
      exact .receiver rfl
    · refine (h.owned id ht).keep { hrefl with verdict := fun v hv => ?_, receiver := ?_ }
      · rw [queued] at hv
        simpa [State.record, hi] using hv
      · simp [free]
  | @receiverDiscarded i receiver =>
    obtain ⟨hi, ht⟩ := ne_of_erase ht
    refine (h.owned id ht).keep { hrefl with receiver := ?_ }
    simpa [receiver] using Ne.symm hi
  | picked at_ | missed at_ | retried at_ | dropped at_ | requeued at_ | ended at_ =>
    refine (h.owned id ht).keep { hrefl with worker := consuming_moved (by rfl) ?_ }
    simp [at_, RegPc.consuming]
  | @taken w i born at_ | @rejected w i born at_ =>
    by_cases hi : id = i
    · subst hi
      refine .worker w ?_
      simp [State.record, State.setWorker, RegPc.consuming]
    · refine (h.owned id ht).keep
        { hrefl with entry := ?_, worker := consuming_moved (by rfl) ?_ }
      · simp [State.record, State.setWorker, PMap.erase_of_ne _ hi]
      · simp [at_, RegPc.consuming]
  | @prepared w i _ _ record take at_ =>
    by_cases hi : id = i
    · subst hi
      exact .worker w (by simp [RegPc.consuming])
    · have ht : s.table.insert i (take record) id ≠ none := ht
      rw [PMap.insert_of_ne _ _ hi] at ht
      refine (h.owned id ht).keep { hrefl with worker := consuming_moved (by rfl) ?_ }
      simp [at_, RegPc.consuming]
  | @preparedEmpty w i _ _ _ at_ absent =>
    have hi : i ≠ id := by
      rintro rfl
      exact ht absent
    refine (h.owned id ht).keep { hrefl with worker := consuming_moved (by rfl) ?_ }
    simpa [at_, RegPc.consuming] using hi
  | @cleaned w i at_ | @discardedRejected w i at_ =>
    obtain ⟨hi, ht⟩ := ne_of_erase ht
    refine (h.owned id ht).keep { hrefl with worker := consuming_moved (by rfl) ?_ }
    simpa [at_, RegPc.consuming] using Ne.symm hi

theorem tableInv_run {s : State ρ ω} {as : List (Action ρ ω)} (run : exec step {} as = some s) :
    TableInv s := by
  have hboth : TableInv s ∧ InjectionInv s := by
    refine exec_invariant (P := fun s => TableInv s ∧ InjectionInv s) ⟨⟨?_, ?_⟩, ?_⟩ ?_ run
    · intro id hb
      cases hb
    · intro id ht
      exact absurd rfl ht
    · exact injectionInv_run (show exec step {} [] = some _ from rfl)
    · intro t a u ⟨ht, hi⟩ hstep
      exact ⟨⟨open_entry_step ht hi hstep, owned_step ht hstep⟩, injectionInv_step hi hstep⟩
  exact hboth.1

end FacesHttp3.Dispatch
