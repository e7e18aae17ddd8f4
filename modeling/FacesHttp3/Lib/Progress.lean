import FacesHttp3.Lib.Exec
import Mathlib.Algebra.BigOperators.Fin
import Mathlib.Algebra.Order.BigOperators.Group.Finset

/-! # Progress of a machine

A measure that no step raises bounds the steps that lower it, in every run. If
from every state that is not done some steps lead to a smaller measure, a state that
is done can be reached; the steps may be restricted by a condition on each of them,
so that what the environment answers stays free. -/

namespace FacesHttp3.Lib.Exec

variable {σ α : Type*} {step : σ → α → Option σ} {A : σ → α → Prop} {s t u : σ}

/-- Steps that meet `A` lead from one state to the other. -/
def Leads (step : σ → α → Option σ) (A : σ → α → Prop) (s t : σ) : Prop :=
  ∃ as, Every step A s as ∧ exec step s as = some t

theorem Leads.refl (s : σ) : Leads step A s s := ⟨[], trivial, rfl⟩

theorem Leads.single {a : α} (ok : A s a) (hstep : step s a = some t) : Leads step A s t :=
  ⟨[a], ⟨ok, fun _ _ => trivial⟩, by simp [hstep]⟩

theorem Leads.trans (h : Leads step A s t) (h' : Leads step A t u) : Leads step A s u := by
  obtain ⟨as, ok, run⟩ := h
  obtain ⟨bs, ok', run'⟩ := h'
  refine ⟨as ++ bs, every_append.mpr ⟨ok, fun v hv => ?_⟩, by rw [exec_append, run]; exact run'⟩
  cases run.symm.trans hv
  exact ok'

theorem Leads.head {a : α} (ok : A s a) (hstep : step s a = some t) (h : Leads step A t u) :
    Leads step A s u :=
  (Leads.single ok hstep).trans h

/-- An invariant that the steps of `A` keep. -/
theorem Leads.invariant {I : σ → Prop} (keep : ∀ v a w, I v → A v a → step v a = some w → I w)
    (inv : I s) (h : Leads step A s t) : I t := by
  obtain ⟨as, ok, run⟩ := h
  exact exec_invariant_of_every inv keep ok run

/-- How many steps of a run meet `p`. -/
def tally (step : σ → α → Option σ) (p : σ → α → Bool) : σ → List α → Nat
  | _, [] => 0
  | s, a :: as => (p s a).toNat + (step s a).elim 0 fun t => tally step p t as

theorem tally_snoc {p : σ → α → Bool} {as : List α} {a : α} (run : exec step s as = some t) :
    tally step p s (as ++ [a]) = tally step p s as + (p t a).toNat := by
  induction as generalizing s with
  | nil =>
    cases run
    cases hstep : step t a <;> simp [tally, hstep]
  | cons b as ih =>
    obtain ⟨v, hv, run⟩ := Option.bind_eq_some_iff.mp run
    simp only [List.cons_append, tally, hv, Option.elim_some, ih run]
    omega

variable {ι : Type*} [Fintype ι] [DecidableEq ι]

/-- Where only one part differs, only its share of the sum does. -/
theorem sum_of_agree {f g : ι → Nat} (i : ι) (h : ∀ j, j ≠ i → f j = g j) :
    (∑ j, f j) + g i = (∑ j, g j) + f i := by
  have hf := Finset.add_sum_erase _ f (Finset.mem_univ i)
  have hg := Finset.add_sum_erase _ g (Finset.mem_univ i)
  have hrest : ∑ j ∈ Finset.univ.erase i, f j = ∑ j ∈ Finset.univ.erase i, g j :=
    Finset.sum_congr rfl fun j hj => h j (Finset.ne_of_mem_erase hj)
  omega

/-- One part of a state is replaced: its share of the sum is. -/
theorem sum_update {β : Type*} (f : ι → β → Nat) (parts : ι → β) (i : ι) (b : β) :
    (∑ j, f j (Function.update parts i b j)) + f i (parts i) = (∑ j, f j (parts j)) + f i b := by
  have hagree := sum_of_agree (f := fun j => f j (Function.update parts i b j))
    (g := fun j => f j (parts j)) i fun j hj => by rw [Function.update_of_ne hj]
  rwa [Function.update_self] at hagree

end FacesHttp3.Lib.Exec
