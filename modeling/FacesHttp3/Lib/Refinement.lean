import FacesHttp3.Lib.Exec

/-! # A machine and its specification

The machine keeps a history, and the specification is a machine that reads histories:
the ones it runs through are those it allows. Every history of the machine is allowed
if each step is matched by what it records, and every allowed history is one of the
machine if each of its letters can be brought about. -/

namespace FacesHttp3.Lib.Exec

variable {σ α l κ : Type*} {step : σ → α → Option σ} {next : l → κ → Option l} {history : σ → List κ}
  {s t : σ} {x y : l}

/-- `Shows x s`: the specification stands at `x` where the machine stands at `s`. -/
structure Refines (step : σ → α → Option σ) (next : l → κ → Option l) (history : σ → List κ)
    (Shows : l → σ → Prop) : Prop where
  step : ∀ x s a t, Shows x s → step s a = some t →
    ∃ ks y, history t = history s ++ ks ∧ exec next x ks = some y ∧ Shows y t

theorem Refines.run {Shows : l → σ → Prop} (h : Refines step next history Shows) (hshows : Shows x s)
    {as : List α} (hrun : exec step s as = some t) :
    ∃ ks y, history t = history s ++ ks ∧ exec next x ks = some y ∧ Shows y t := by
  refine exec_invariant (P := fun t => ∃ ks y, history t = history s ++ ks ∧ exec next x ks = some y ∧
    Shows y t) ?_ ?_ hrun
  · exact ⟨[], x, (List.append_nil _).symm, rfl, hshows⟩
  · intro t a u hbefore hstep
    obtain ⟨ks, y, hhistory, hy, hshows⟩ := hbefore
    obtain ⟨ks', z, hhistory', hz, hshows⟩ := h.step y t a u hshows hstep
    refine ⟨ks ++ ks', z, by rw [hhistory', hhistory, List.append_assoc], ?_, hshows⟩
    rw [exec_append, hy]
    exact hz

/-- What the specification does is known from the history. -/
theorem Refines.shows_of_history {Shows : l → σ → Prop} (h : Refines step next history Shows)
    (hshows : Shows x s) {as : List α} (hrun : exec step s as = some t) {ks : List κ}
    (hhistory : history t = history s ++ ks) (hks : exec next x ks = some y) : Shows y t := by
  obtain ⟨ks', z, hhistory', hz, hshows⟩ := h.run hshows hrun
  obtain rfl := List.append_cancel_left (hhistory.symm.trans hhistory')
  cases hks.symm.trans hz
  exact hshows

/-- `Ready x s`: from `s` the machine can bring about what the specification allows
at `x`. -/
structure Realizes (step : σ → α → Option σ) (next : l → κ → Option l) (history : σ → List κ)
    (Ready : l → σ → Prop) : Prop where
  bring : ∀ x s k y, Ready x s → next x k = some y →
    ∃ as t, exec step s as = some t ∧ history t = history s ++ [k] ∧ Ready y t

theorem Realizes.run {Ready : l → σ → Prop} (h : Realizes step next history Ready) (hready : Ready x s)
    {ks : List κ} (hks : exec next x ks = some y) :
    ∃ as t, exec step s as = some t ∧ history t = history s ++ ks ∧ Ready y t := by
  induction ks generalizing x s with
  | nil =>
    cases hks
    exact ⟨[], s, rfl, (List.append_nil _).symm, hready⟩
  | cons k ks ih =>
    obtain ⟨z, hz, hks⟩ := Option.bind_eq_some_iff.mp hks
    obtain ⟨as, m, hfirst, hhistory, hm⟩ := h.bring x s k z hready hz
    obtain ⟨bs, t, hrest, hhistory', ht⟩ := ih hm hks
    refine ⟨as ++ bs, t, by rw [exec_append, hfirst]; exact hrest, ?_, ht⟩
    rw [hhistory', hhistory, List.append_assoc]
    rfl

/-- The histories of the machine are those the specification allows. -/
theorem history_iff {Shows Ready : l → σ → Prop} (h : Refines step next history Shows)
    (h' : Realizes step next history Ready) (hshows : Shows x s) (hready : Ready x s)
    (hempty : history s = []) {ks : List κ} :
    (∃ as t, exec step s as = some t ∧ history t = ks) ↔ (exec next x ks).isSome := by
  constructor
  · rintro ⟨as, t, hrun, rfl⟩
    obtain ⟨ks, y, hhistory, hy, -⟩ := h.run hshows hrun
    rw [hhistory, hempty, List.nil_append]
    exact Option.isSome_iff_exists.mpr ⟨y, hy⟩
  · intro hsome
    obtain ⟨y, hy⟩ := Option.isSome_iff_exists.mp hsome
    obtain ⟨as, t, hrun, hhistory, -⟩ := h'.run hready hy
    exact ⟨as, t, hrun, by rw [hhistory, hempty, List.nil_append]⟩

end FacesHttp3.Lib.Exec
