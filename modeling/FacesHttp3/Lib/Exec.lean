import Mathlib.Data.List.Basic

/-! # Runs of a labelled machine

A machine is a function `step : σ → α → Option σ`: an action names the thread
that moves and every answer its environment gives, and an action that is not
enabled has no successor. A run is a list of actions. The induction rules below
are stated once for every machine: `exec_induction` carries an invariant that
may mention the past actions and may use a condition every step of the run
meets. -/

namespace FacesHttp3.Lib.Exec

variable {σ α : Type*}

/-- A step enabled by `c`. -/
def guarded (c : Prop) [Decidable c] (t : σ) : Option σ := if c then some t else none

@[simp] theorem guarded_eq_some_iff {c : Prop} [Decidable c] {s t : σ} :
    guarded c s = some t ↔ c ∧ s = t := by
  unfold guarded
  split <;> simp_all

/-- Perform the actions in order. -/
def exec (step : σ → α → Option σ) : σ → List α → Option σ
  | s, [] => some s
  | s, a :: as => (step s a).bind fun t => exec step t as

/-- Every action of the run is taken in a state that meets `C` with it. -/
def Every (step : σ → α → Option σ) (C : σ → α → Prop) : σ → List α → Prop
  | _, [] => True
  | s, a :: as => C s a ∧ ∀ t, step s a = some t → Every step C t as

variable {step : σ → α → Option σ} {C : σ → α → Prop} {s t : σ} {as bs : List α}

instance Every.decidable [∀ s a, Decidable (C s a)] :
    ∀ (s : σ) (as : List α), Decidable (Every step C s as)
  | _, [] => .isTrue trivial
  | s, a :: as =>
    have (t : σ) : Decidable (Every step C t as) := Every.decidable t as
    inferInstanceAs (Decidable (C s a ∧ ∀ t ∈ step s a, Every step C t as))

@[simp] theorem exec_nil : exec step s [] = some s := rfl

@[simp] theorem exec_cons (a : α) :
    exec step s (a :: as) = (step s a).bind fun t => exec step t as := rfl

theorem exec_append : exec step s (as ++ bs) = (exec step s as).bind fun t => exec step t bs := by
  induction as generalizing s with
  | nil => rfl
  | cons a as ih => cases h : step s a <;> simp [h, ih]

theorem exec_snoc {a : α} : exec step s (as ++ [a]) = (exec step s as).bind fun t => step t a := by
  rw [exec_append]
  congr 1
  funext t
  cases h : step t a <;> simp [h]

theorem every_of_forall (h : ∀ s a, C s a) : ∀ (as : List α) (s : σ), Every step C s as
  | [], _ => trivial
  | a :: as, s => ⟨h s a, fun t _ => every_of_forall h as t⟩

/-- The condition of a step follows from an invariant and from which actions the run is
made of. -/
theorem every_of_invariant {P : σ → Prop} {A : α → Prop} (init : P s)
    (keep : ∀ t a u, P t → A a → step t a = some u → P u)
    (one : ∀ t a u, P t → A a → step t a = some u → C t a) (allowed : ∀ a ∈ as, A a)
    (run : exec step s as = some t) : Every step C s as := by
  induction as generalizing s with
  | nil => trivial
  | cons a as ih =>
    obtain ⟨u, hu, run⟩ := Option.bind_eq_some_iff.mp run
    have ha : A a := allowed a List.mem_cons_self
    refine ⟨one s a u init ha hu, ?_⟩
    intro v hv
    cases hu.symm.trans hv
    exact ih (keep s a u init ha hu) (fun b hb => allowed b (List.mem_cons_of_mem _ hb)) run

/-- A run in two parts meets the condition when each part does. -/
theorem every_append : Every step C s (as ++ bs) ↔
    Every step C s as ∧ ∀ t, exec step s as = some t → Every step C t bs := by
  induction as generalizing s with
  | nil => exact ⟨fun h => ⟨trivial, fun t ht => by cases ht; exact h⟩, fun h => h.2 s rfl⟩
  | cons a as ih =>
    constructor
    · intro h
      refine ⟨⟨h.1, fun u hu => (ih.mp (h.2 u hu)).1⟩, fun t ht => ?_⟩
      obtain ⟨u, hu, ht⟩ := Option.bind_eq_some_iff.mp ht
      exact (ih.mp (h.2 u hu)).2 t ht
    · intro h
      refine ⟨h.1.1, fun u hu => ih.mpr ⟨h.1.2 u hu, fun t ht => h.2 t ?_⟩⟩
      rw [exec_cons, hu, Option.bind_some, ht]

/-- The condition still holds of every step of a shorter run. -/
theorem Every.prefix_of_append (h : Every step C s (as ++ bs)) : Every step C s as :=
  (every_append.mp h).1

/-- The condition holds of the rest of a run. -/
theorem Every.later (h : Every step C s (as ++ bs)) (run : exec step s as = some t) :
    Every step C t bs :=
  (every_append.mp h).2 t run

/-- The condition of the step after a run. -/
theorem Every.last {a : α} (h : Every step C s (as ++ [a])) (run : exec step s as = some t) :
    C t a :=
  (h.later run).1

/-- Some step of the run meets `P`, and every step after it meets `C`. -/
def Since (step : σ → α → Option σ) (P C : σ → α → Prop) (s : σ) (as : List α) : Prop :=
  ∃ before a after t u, as = before ++ a :: after ∧ exec step s before = some t ∧ P t a ∧
    step t a = some u ∧ Every step C u after

theorem not_since_nil {P : σ → α → Prop} : ¬ Since step P C s [] := by
  intro ⟨before, a, after, _, _, h, _⟩
  simp at h

/-- The last step is the one that meets `P`, or it comes after it. -/
theorem since_snoc {P : σ → α → Prop} {a : α} {u : σ} (run : exec step s as = some t)
    (hstep : step t a = some u) :
    Since step P C s (as ++ [a]) ↔ P t a ∨ (Since step P C s as ∧ C t a) := by
  constructor
  · intro ⟨before, b, after, v, w, heq, hbefore, hb, hw, hafter⟩
    rcases List.eq_nil_or_concat after with rfl | ⟨after, c, rfl⟩
    · obtain ⟨rfl, h⟩ := List.append_inj' heq rfl
      cases h
      cases hbefore.symm.trans run
      exact .inl hb
    · rw [List.concat_eq_append] at heq hafter
      rw [← List.cons_append, ← List.append_assoc] at heq
      obtain ⟨rfl, h⟩ := List.append_inj' heq rfl
      cases h
      rw [exec_append, hbefore, Option.bind_some, exec_cons, hw, Option.bind_some] at run
      exact .inr ⟨⟨before, b, after, v, w, rfl, hbefore, hb, hw, hafter.prefix_of_append⟩,
        hafter.last run⟩
  · rintro (hp | ⟨⟨before, b, after, v, w, rfl, hbefore, hb, hw, hafter⟩, hc⟩)
    · exact ⟨as, a, [], t, u, rfl, run, hp, hstep, trivial⟩
    · rw [exec_append, hbefore, Option.bind_some, exec_cons, hw, Option.bind_some] at run
      refine ⟨before, b, after ++ [a], v, w, by simp, hbefore, hb, hw, every_append.mpr ⟨hafter, ?_⟩⟩
      intro x hx
      cases run.symm.trans hx
      exact ⟨hc, fun _ _ => trivial⟩

/-- An invariant of the past actions and the present state, established at the
start and kept by every step that meets the condition. -/
theorem exec_induction {P : List α → σ → Prop} (init : P [] s)
    (keep : ∀ past t a u, P past t → C t a → step t a = some u → P (past ++ [a]) u)
    (ok : Every step C s as) (run : exec step s as = some t) : P as t := by
  have aux : ∀ (as past : List α) (s : σ), P past s → Every step C s as →
      exec step s as = some t → P (past ++ as) t := by
    intro as
    induction as with
    | nil =>
      intro past s hp _ run
      cases run
      simpa using hp
    | cons a as ih =>
      intro past s hp ok run
      obtain ⟨u, hu, run⟩ := Option.bind_eq_some_iff.mp run
      have := ih (past ++ [a]) u (keep past s a u hp ok.1 hu) (ok.2 u hu) run
      simpa using this
  simpa using aux as [] s init ok run

/-- An invariant of the state kept by every step that meets the condition. -/
theorem exec_invariant_of_every {P : σ → Prop} (init : P s)
    (keep : ∀ t a u, P t → C t a → step t a = some u → P u)
    (ok : Every step C s as) (run : exec step s as = some t) : P t :=
  exec_induction (P := fun _ => P) init (fun _ t a u => keep t a u) ok run

/-- An invariant of the state kept by every step. -/
theorem exec_invariant {P : σ → Prop} (init : P s)
    (keep : ∀ t a u, P t → step t a = some u → P u) (run : exec step s as = some t) : P t :=
  exec_invariant_of_every (C := fun _ _ => True) init (fun t a u hp _ => keep t a u hp)
    (every_of_forall (fun _ _ => trivial) as s) run

/-- An invariant of the past actions and the present state kept by every step. -/
theorem exec_history {P : List α → σ → Prop} (init : P [] s)
    (keep : ∀ past t a u, P past t → step t a = some u → P (past ++ [a]) u)
    (run : exec step s as = some t) : P as t :=
  exec_induction (C := fun _ _ => True) init (fun past t a u hp _ => keep past t a u hp)
    (every_of_forall (fun _ _ => trivial) as s) run

/-- A run that never stops short ends well exactly when all of its steps meet `C`:
each step from a good state leads to some state, which is good if and only if the
step meets `C`, and a machine that went wrong makes no further step. -/
theorem exec_good_iff_every {I : σ → Prop} {Good : σ → Prop} {L : α → Prop}
    (total : ∀ s a, I s → Good s → L a → ∃ t, step s a = some t ∧ (Good t ↔ C s a))
    (keep : ∀ s a t, I s → step s a = some t → I t)
    (stuck : ∀ s a, ¬ Good s → step s a = none)
    (inv : I s) (good : Good s) (allowed : ∀ a ∈ as, L a) :
    (∃ t, exec step s as = some t ∧ Good t) ↔ Every step C s as := by
  induction as generalizing s with
  | nil => exact ⟨fun _ => trivial, fun _ => ⟨s, rfl, good⟩⟩
  | cons a as ih =>
    obtain ⟨t, ht, hgood⟩ := total s a inv good (allowed a (by simp))
    have hrest := fun hg => ih (keep s a t inv ht) hg fun b hb => allowed b (by simp [hb])
    simp only [exec_cons, ht, Option.bind_some, Every, Option.some.injEq, forall_eq']
    constructor
    · intro ⟨u, hu, hug⟩
      have hg : Good t := by
        by_contra hbad
        cases as with
        | nil =>
          cases hu
          exact hbad hug
        | cons b bs => simp [stuck t b hbad] at hu
      exact ⟨hgood.mp hg, (hrest hg).mp ⟨u, hu, hug⟩⟩
    · intro ⟨hc, hevery⟩
      exact (hrest (hgood.mpr hc)).mpr hevery

/-- If a step from one good state to another meets `C`, so does every step of a run
through good states. -/
theorem every_of_always_good {I : σ → Prop} {Good : σ → Prop}
    (one : ∀ s a t, I s → Good s → step s a = some t → Good t → C s a)
    (keep : ∀ s a t, I s → step s a = some t → I t) (inv : I s) (run : exec step s as = some t)
    (good : ∀ before after u, as = before ++ after → exec step s before = some u → Good u) :
    Every step C s as := by
  induction as generalizing s with
  | nil => trivial
  | cons a as ih =>
    obtain ⟨u, hu, run⟩ := Option.bind_eq_some_iff.mp run
    have hgood : Good u := good [a] as u rfl (by rw [exec_cons, hu]; rfl)
    refine ⟨one s a u inv (good [] (a :: as) s rfl rfl) hu hgood, ?_⟩
    intro v hv
    cases hu.symm.trans hv
    refine ih (keep s a u inv hu) run ?_
    intro before after w heq hbefore
    exact good (a :: before) after w (by rw [heq]; rfl) (by rw [exec_cons, hu]; exact hbefore)

theorem exec_total (total : ∀ s a, ∃ t, step s a = some t) (as : List α) (s : σ) :
    ∃ t, exec step s as = some t := by
  induction as generalizing s with
  | nil => exact ⟨s, rfl⟩
  | cons a as ih =>
    obtain ⟨u, hu⟩ := total s a
    obtain ⟨t, ht⟩ := ih u
    exact ⟨t, by rw [exec_cons, hu, Option.bind_some, ht]⟩

/-- For a machine whose actions are always enabled: all states of a run are good
exactly when all of its steps meet `C`, if a step from a good state keeps it good
exactly when it meets `C`. -/
theorem always_good_iff_every {I : σ → Prop} {Good : σ → Prop}
    (total : ∀ s a, ∃ t, step s a = some t)
    (one : ∀ s a t, I s → Good s → step s a = some t → (Good t ↔ C s a))
    (keep : ∀ s a t, I s → step s a = some t → I t) (inv : I s) (good : Good s) :
    (∀ before after t, as = before ++ after → exec step s before = some t → Good t) ↔
      Every step C s as := by
  constructor
  · intro hall
    obtain ⟨t, run⟩ := exec_total total as s
    refine every_of_always_good ?_ keep inv run hall
    intro v a u hinv hgood hstep hgood'
    exact (one v a u hinv hgood hstep).mp hgood'
  · intro hevery before after t heq run
    rw [heq] at hevery
    have h : I t ∧ Good t := by
      refine exec_invariant_of_every (P := fun v => I v ∧ Good v) ⟨inv, good⟩ ?_
        hevery.prefix_of_append run
      intro v a u ⟨hinv, hgood⟩ hc hstep
      exact ⟨keep v a u hinv hstep, (one v a u hinv hgood hstep).mpr hc⟩
    exact h.2

end FacesHttp3.Lib.Exec
