import FacesHttp3.Dispatch.Entries

/-! # Injections

An injection moves between the queue and the workers until its request has no
entry any more. -/

namespace FacesHttp3.Dispatch
open FacesHttp3.Lib FacesHttp3.Lib.Exec FacesHttp3.Lib.History FacesHttp3.Request

variable {ρ ω : Type} [DecidableEq ω]

/-- An injection of `id` is queued or with a worker that has consumed nothing. -/
def InjectionPending (s : State ρ ω) (id : ReqId) : Prop :=
  id ∈ s.injections ∨ ∃ w, (s.workers w).injection = some id

/-- A worker moves and takes its injection along. -/
theorem injectionPending_setWorker {s t : State ρ ω} {id : ReqId} {w : ω} {pc : RegPc}
    (hi : t.injections = s.injections) (hw : t.workers = s.workers)
    (hpc : pc.injection = (s.workers w).injection) :
    InjectionPending (t.setWorker w pc) id ↔ InjectionPending s id := by
  have hsame : ∀ v, ((t.setWorker w pc).workers v).injection = (s.workers v).injection := by
    intro v
    rw [setWorker_workers]
    split
    · subst v; exact hpc
    · rw [hw]
  unfold InjectionPending
  rw [show (t.setWorker w pc).injections = s.injections from hi]
  simp only [hsame]

/-- A worker without an injection moves on without one; another's are kept. -/
theorem injectionPending_release {s t : State ρ ω} {i held : ReqId} {w : ω} {p : RegPc}
    (hi : t.injections = s.injections) (hw : t.workers = s.workers)
    (hold : (s.workers w).injection = some held) (hpc : p.injection = none) :
    (InjectionPending (t.setWorker w p) i → InjectionPending s i) ∧
      (InjectionPending s i → i = held ∨ InjectionPending (t.setWorker w p) i) := by
  constructor
  · rintro (h | ⟨v, hv⟩)
    · exact .inl (hi ▸ h)
    · rw [setWorker_workers] at hv
      split at hv
      · simp [hpc] at hv
      · exact .inr ⟨v, hw ▸ hv⟩
  · rintro (h | ⟨v, hv⟩)
    · exact .inr (.inl (show i ∈ t.injections from hi ▸ h))
    · by_cases hvw : v = w
      · subst v
        rw [hold] at hv
        exact .inl (Option.some.inj hv).symm
      · exact .inr (.inr ⟨v, by rw [setWorker_workers, if_neg hvw, hw]; exact hv⟩)

/-- Injections are kept until their request has no entry, and only an end of the
request makes one. -/
structure InjectionStep (s t : State ρ ω) : Prop where
  kept : ∀ id, InjectionPending s id → InjectionPending t id ∨ t.signal id = none
  made : ∀ id, InjectionPending t id → InjectionPending s id ∨ t.ended id = true
  ended : ∀ id, s.ended id = true → t.ended id = true

omit [DecidableEq ω] in
theorem InjectionStep.of_iff {s t : State ρ ω}
    (h : ∀ id, InjectionPending t id ↔ InjectionPending s id)
    (he : ∀ id, s.ended id = true → t.ended id = true) : InjectionStep s t :=
  ⟨fun id hp => .inl ((h id).mpr hp), fun id hp => .inl ((h id).mp hp), he⟩

omit [DecidableEq ω] in
/-- An injection is let go of once its request has no entry. -/
theorem InjectionStep.of_release {s t : State ρ ω} {held : ReqId}
    (h : ∀ i, (InjectionPending t i → InjectionPending s i) ∧
      (InjectionPending s i → i = held ∨ InjectionPending t i))
    (gone : t.signal held = none) (he : ∀ id, s.ended id = true → t.ended id = true) :
    InjectionStep s t where
  kept i hp := by
    rcases (h i).2 hp with rfl | hp
    · exact .inr gone
    · exact .inl hp
  made i hp := .inl ((h i).1 hp)
  ended := he

theorem step_injections {s t : State ρ ω} {a : Action ρ ω} (h : step s a = some t) :
    InjectionStep s t := by
  cases step_transition h with
  | begun | created | data | discarded | discardedConnection | started | wrote | judged | received
  | unknown | receiverDiscarded => exact .of_iff (fun _ => Iff.rfl) fun _ he => he
  | @finished id =>
    refine ⟨fun i hp => .inl ?_, fun i hp => ?_, fun i he => ?_⟩
    · rcases hp with hp | hw
      · exact .inl (List.mem_append_left _ hp)
      · exact .inr hw
    · rcases hp with hp | hw
      · rcases List.mem_append.mp hp with hp | hp
        · exact .inl (.inl hp)
        · rw [List.mem_singleton.mp hp]
          exact .inr (Function.update_self ..)
      · exact .inl (.inr hw)
    · simp only [State.record, Function.update_apply]
      split
      · rfl
      · exact he
  | cancelled =>
    refine .of_iff (fun _ => Iff.rfl) fun i he => ?_
    simp only [State.record, Function.update_apply]
    split
    · rfl
    · exact he
  | cancelledConnection => exact .of_iff (fun _ => Iff.rfl) fun i he => by simp [State.record, he]
  | @picked w id rest at_ queued =>
    refine .of_iff (fun i => ?_) fun _ he => he
    constructor
    · rintro (hp | ⟨v, hv⟩)
      · exact .inl (by rw [queued]; exact List.mem_cons_of_mem _ hp)
      · rw [setWorker_workers] at hv
        split at hv
        · cases hv
          exact .inl (by rw [queued]; exact List.mem_cons_self)
        · exact .inr ⟨v, hv⟩
    · rintro (hp | ⟨v, hv⟩)
      · rw [queued] at hp
        rcases List.mem_cons.mp hp with rfl | hp
        · exact .inr ⟨w, by rw [setWorker_workers, if_pos rfl]; rfl⟩
        · exact .inl hp
      · refine .inr ⟨v, ?_⟩
        rw [setWorker_workers, if_neg]
        · exact hv
        · rintro rfl
          rw [at_] at hv
          cases hv
  | @taken w id born at_ =>
    have hrel := fun i => injectionPending_release (i := i) (w := w)
      (p := .taken id born s.log.length) (t := { s with signal := s.signal.erase id })
      rfl rfl (by rw [at_]; rfl) rfl
    exact .of_release hrel (PMap.erase_self ..) fun _ he => he
  | @rejected w id born at_ =>
    have hrel := fun i => injectionPending_release (i := i) (w := w)
      (p := .rejecting id) (t := { s with signal := s.signal.erase id })
      rfl rfl (by rw [at_]; rfl) rfl
    exact .of_release hrel (PMap.erase_self ..) fun _ he => he
  | @dropped w id at_ absent =>
    have hrel := fun i => injectionPending_release (i := i) (w := w)
      (p := .idle) (t := s) rfl rfl (by rw [at_]; rfl) rfl
    exact .of_release hrel absent fun _ he => he
  | @requeued w id at_ =>
    refine .of_iff (fun i => ?_) fun _ he => he
    constructor
    · rintro (hp | ⟨v, hv⟩)
      · rcases List.mem_append.mp hp with hp | hp
        · exact .inl hp
        · rw [List.mem_singleton.mp hp]
          exact .inr ⟨w, by rw [at_]; rfl⟩
      · rw [setWorker_workers] at hv
        split at hv
        · cases hv
        · exact .inr ⟨v, hv⟩
    · rintro (hp | ⟨v, hv⟩)
      · exact .inl (List.mem_append_left _ hp)
      · by_cases hvw : v = w
        · subst v
          rw [at_] at hv
          cases hv
          exact .inl (List.mem_append_right _ List.mem_cons_self)
        · exact .inr ⟨v, by rw [setWorker_workers, if_neg hvw]; exact hv⟩
  | missed at_ | retried at_ | prepared at_ | preparedEmpty at_ | cleaned at_ | ended at_
  | discardedRejected at_ =>
    refine .of_iff (fun i => ?_) fun _ he => he
    exact injectionPending_setWorker (by rfl) (by rfl) (by rw [at_]; rfl)

/-- Every injection is of an ended request, and a live entry has one if its
request was finished since the entry's creation. -/
structure InjectionInv (s : State ρ ω) : Prop where
  ended : ∀ id, InjectionPending s id → s.ended id = true
  live : ∀ id slot p, s.signal id = some slot → At s.log p (.injected id) → slot.born < p →
    InjectionPending s id

theorem injectionInv_step {s t : State ρ ω} {a : Action ρ ω} (h : InjectionInv s)
    (hstep : step s a = some t) : InjectionInv t := by
  have hi := step_injections hstep
  refine ⟨fun id hp => ?_, fun id slot' p hs hp hborn => ?_⟩
  · rcases hi.made id hp with hp | he
    · exact hi.ended id (h.ended id hp)
    · exact he
  · have hkept : InjectionPending s id → InjectionPending t id := fun hpend =>
      (hi.kept id hpend).resolve_right (by rw [hs]; simp)
    rcases (step_effect hstep).grows with ⟨signal, log, -⟩ | ⟨e, g⟩
    · rw [signal] at hs
      rw [log] at hp
      exact hkept (h.live id slot' p hs hp hborn)
    · rw [g.log] at hp
      rcases at_snoc_iff.mp hp with hp | ⟨rfl, rfl⟩
      · rcases g.slot id slot' hs with ⟨-, hb, -⟩ | ⟨slot, hold, hb, -, -⟩
        · exact absurd (hb ▸ hborn) (Nat.lt_asymm hp.lt)
        · exact hkept (h.live id slot p hold hp (hb ▸ hborn))
      · exact .inl (g.injected id rfl)

theorem injectionInv_run {s : State ρ ω} {as : List (Action ρ ω)}
    (run : exec step {} as = some s) : InjectionInv s := by
  refine exec_invariant (P := InjectionInv) ⟨?_, ?_⟩ (fun _ _ _ => injectionInv_step) run
  · rintro id (h | ⟨w, hw⟩)
    · cases h
    · cases hw
  · intro id slot p hs
    cases hs

end FacesHttp3.Dispatch
