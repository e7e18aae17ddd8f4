import FacesHttp3.Lib.Exec

/-! # Runs seen from a part of the state

A machine whose steps either act on a part of the state or leave that part as it is.
The actions of a run that act on the part are then a run of their own, of a machine
that need not have any other part. -/

namespace FacesHttp3.Lib.Exec

variable {σ υ α : Type*} {step : σ → α → Option σ} {step' : υ → α → Option υ} {keep : σ → α → Bool}
  {View : σ → υ → Prop} {s t : σ} {u : υ}

/-- The actions of a run that are kept where they are taken. -/
def kept (step : σ → α → Option σ) (keep : σ → α → Bool) : σ → List α → List α
  | _, [] => []
  | s, a :: as => (if keep s a then [a] else []) ++ (step s a).elim [] fun t => kept step keep t as

/-- A kept action is one of the other machine too, and any other leaves what it sees. -/
structure Projects (step : σ → α → Option σ) (step' : υ → α → Option υ) (keep : σ → α → Bool)
    (View : σ → υ → Prop) : Prop where
  kept : ∀ s u a t, View s u → step s a = some t → keep s a = true →
    ∃ v, step' u a = some v ∧ View t v
  hidden : ∀ s u a t, View s u → step s a = some t → keep s a = false → View t u

theorem Projects.run (h : Projects step step' keep View) (view : View s u) {as : List α}
    (run : exec step s as = some t) :
    ∃ v, exec step' u (Exec.kept step keep s as) = some v ∧ View t v := by
  induction as generalizing s u with
  | nil =>
    cases run
    exact ⟨u, rfl, view⟩
  | cons a as ih =>
    obtain ⟨m, hm, run⟩ := Option.bind_eq_some_iff.mp run
    simp only [Exec.kept, hm, Option.elim_some]
    cases hkeep : keep s a with
    | true =>
      obtain ⟨v, hv, hview⟩ := h.kept s u a m view hm hkeep
      obtain ⟨w, hw, hend⟩ := ih hview run
      exact ⟨w, by simp [hv, hw], hend⟩
    | false =>
      obtain ⟨w, hw, hend⟩ := ih (h.hidden s u a m view hm hkeep) run
      exact ⟨w, by simpa using hw, hend⟩

end FacesHttp3.Lib.Exec
