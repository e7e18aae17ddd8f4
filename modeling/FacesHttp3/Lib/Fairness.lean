import FacesHttp3.Lib.Exec
import Mathlib.Order.WellFounded
import Mathlib.Data.Prod.Lex

/-! # Fair behaviours

An endless behaviour of a machine, with moments at which nothing happens. The moves of
the machine are divided among threads, and a thread that can move at every moment from
some one on moves at one of them. If the machine is not done, a thread can help it; and
if every step brings a rank down or leaves the rank and the helping thread as they are,
the machine gets done. -/

namespace FacesHttp3.Lib.Exec

variable {σ α ι R : Type*} {step : σ → α → Option σ}

structure Behaviour (step : σ → α → Option σ) where
  states : Nat → σ
  actions : Nat → Option α
  follows : ∀ n, match actions n with
    | some a => step (states n) a = some (states (n + 1))
    | none => states (n + 1) = states n

/-- A move of the thread is possible. -/
def Enabled (step : σ → α → Option σ) (moves : ι → σ → α → Prop) (i : ι) (s : σ) : Prop :=
  ∃ a, moves i s a ∧ (step s a).isSome = true

namespace Behaviour

/-- What was done before a moment. -/
def before (b : Behaviour step) : Nat → List α
  | 0 => []
  | n + 1 => b.before n ++ (b.actions n).toList

def Meets (b : Behaviour step) (A : σ → α → Prop) : Prop := ∀ n a, b.actions n = some a → A (b.states n) a

/-- Weak fairness: no thread that can move for ever waits for ever. -/
def Fair (b : Behaviour step) (moves : ι → σ → α → Prop) : Prop :=
  ∀ i n, (∀ m, n ≤ m → Enabled step moves i (b.states m)) →
    ∃ m a, n ≤ m ∧ b.actions m = some a ∧ moves i (b.states m) a

variable {b : Behaviour step}

theorem follows_some {n : Nat} {a : α} (h : b.actions n = some a) :
    step (b.states n) a = some (b.states (n + 1)) := by
  have hfollows := b.follows n
  rwa [h] at hfollows

theorem follows_none {n : Nat} (h : b.actions n = none) : b.states (n + 1) = b.states n := by
  have hfollows := b.follows n
  rwa [h] at hfollows

theorem exec_before (b : Behaviour step) (n : Nat) :
    exec step (b.states 0) (b.before n) = some (b.states n) := by
  induction n with
  | zero => rfl
  | succ n ih =>
    rw [before, exec_append, ih, Option.bind_some]
    cases haction : b.actions n with
    | none => rw [Option.toList_none, exec_nil, follows_none haction]
    | some a => rw [Option.toList_some, exec_cons, follows_some haction, Option.bind_some, exec_nil]

/-- What every step keeps holds from some moment on if it holds at it. -/
theorem invariant {I : σ → Prop} {A : σ → α → Prop} (keep : ∀ s a t, I s → A s a → step s a = some t → I t)
    (hA : b.Meets A) {n m : Nat} (hn : n ≤ m) (inv : I (b.states n)) : I (b.states m) := by
  induction m, hn using Nat.le_induction with
  | base => exact inv
  | succ m _ ih =>
    cases haction : b.actions m with
    | none => rwa [follows_none haction]
    | some a => exact keep _ a _ ih (hA m a haction) (follows_some haction)

/-- The rank falls, or the helper stays able to move; so it moves, and the rank falls. -/
theorem eventually [LT R] [WellFoundedLT R] {moves : ι → σ → α → Prop} {A : σ → α → Prop}
    (I Done : σ → Prop) (rank : σ → R) (helper : σ → ι)
    (keep : ∀ s a t, I s → A s a → step s a = some t → I t)
    (enabled : ∀ s, I s → ¬ Done s → Enabled step moves (helper s) s)
    (falls : ∀ s a t, I s → ¬ Done s → A s a → step s a = some t →
      rank t < rank s ∨ (rank t = rank s ∧ helper t = helper s ∧ ¬ moves (helper s) s a))
    (hA : b.Meets A) (hfair : b.Fair moves) {n : Nat} (inv : I (b.states n)) :
    ∃ m, n ≤ m ∧ Done (b.states m) := by
  induction hr : rank (b.states n) using WellFoundedLT.induction generalizing n with
  | ind r ih =>
    by_contra hnone
    have hbusy : ∀ m, n ≤ m → ¬ Done (b.states m) := fun m hm hdone => hnone ⟨m, hm, hdone⟩
    have hinv : ∀ m, n ≤ m → I (b.states m) := fun m hm => invariant keep hA hm inv
    -- the rank never falls, as the machine would get done from there
    have hstays : ∀ m, n ≤ m → rank (b.states m) = r → ¬ rank (b.states (m + 1)) < rank (b.states m) := by
      intro m hm hrank hlt
      obtain ⟨k, hk, hdone⟩ := ih _ (hrank ▸ hlt) (hinv (m + 1) (by omega)) rfl
      exact hbusy k (by omega) hdone
    have hsame : ∀ m, n ≤ m → rank (b.states m) = r ∧ helper (b.states m) = helper (b.states n) := by
      intro m hm
      induction m, hm using Nat.le_induction with
      | base => exact ⟨hr, rfl⟩
      | succ m hm ihm =>
        cases haction : b.actions m with
        | none => rwa [follows_none haction]
        | some a =>
          rcases falls _ a _ (hinv m hm) (hbusy m hm) (hA m a haction) (follows_some haction) with
            hlt | ⟨hrank, hhelper, -⟩
          · exact absurd hlt (hstays m hm ihm.1)
          · exact ⟨hrank.trans ihm.1, hhelper.trans ihm.2⟩
    obtain ⟨m, a, hm, haction, hmoves⟩ := hfair (helper (b.states n)) n fun m hm =>
      (hsame m hm).2 ▸ enabled _ (hinv m hm) (hbusy m hm)
    rcases falls _ a _ (hinv m hm) (hbusy m hm) (hA m a haction) (follows_some haction) with
      hlt | ⟨-, -, hnot⟩
    · exact hstays m hm (hsame m hm).1 hlt
    · exact hnot ((hsame m hm).2 ▸ hmoves)

/-- What stays until the thread moves, and lets it move, is so when it moves. -/
theorem until_moves {moves : ι → σ → α → Prop} {i : ι} {P : σ → Prop}
    (stays : ∀ s a t, P s → step s a = some t → ¬ moves i s a → P t)
    (enabled : ∀ s, P s → Enabled step moves i s) (hfair : b.Fair moves) {n : Nat} (here : P (b.states n)) :
    ∃ m a, n ≤ m ∧ P (b.states m) ∧ b.actions m = some a ∧ moves i (b.states m) a := by
  by_contra hnone
  have hP : ∀ m, n ≤ m → P (b.states m) := by
    intro m hm
    induction m, hm using Nat.le_induction with
    | base => exact here
    | succ m hm ih =>
      cases haction : b.actions m with
      | none => rwa [follows_none haction]
      | some a =>
        exact stays _ a _ ih (follows_some haction) fun hmoves => hnone ⟨m, a, hm, ih, haction, hmoves⟩
  obtain ⟨m, a, hm, haction, hmoves⟩ := hfair i n fun m hm => enabled _ (hP m hm)
  exact hnone ⟨m, a, hm, hP m hm, haction, hmoves⟩

/-! ## A run that ends -/

theorem exists_of_take {s t : σ} {as : List α} (run : exec step s as = some t) (n : Nat) :
    ∃ u, exec step s (as.take n) = some u := by
  rw [← List.take_append_drop n as, exec_append] at run
  obtain ⟨u, hu, -⟩ := Option.bind_eq_some_iff.mp run
  exact ⟨u, hu⟩

/-- The run, and then nothing. -/
def ofRun {s t : σ} {as : List α} (run : exec step s as = some t) : Behaviour step where
  states n := (exec step s (as.take n)).getD s
  actions n := as[n]?
  follows n := by
    obtain ⟨u, hu⟩ := exists_of_take run n
    obtain ⟨v, hv⟩ := exists_of_take run (n + 1)
    rw [List.take_add_one, exec_append, hu, Option.bind_some] at hv
    rw [List.take_add_one, exec_append, hu, Option.bind_some, hv, Option.getD_some, Option.getD_some]
    cases haction : as[n]? with
    | none => simpa [haction] using hv.symm
    | some a => simpa [haction] using hv

theorem ofRun_of_length_le {s t : σ} {as : List α} (run : exec step s as = some t) {n : Nat}
    (hn : as.length ≤ n) : (ofRun run).states n = t := by
  simp [ofRun, List.take_of_length_le hn, run]

/-- Where no thread can move at the end, no thread is wronged. -/
theorem ofRun_fair {s t : σ} {as : List α} (run : exec step s as = some t) {moves : ι → σ → α → Prop}
    (hend : ∀ i, ¬ Enabled step moves i t) : (ofRun run).Fair moves := by
  intro i n henabled
  have hlast := henabled (max n as.length) (Nat.le_max_left _ _)
  rw [ofRun_of_length_le run (Nat.le_max_right _ _)] at hlast
  exact absurd hlast (hend i)

end Behaviour

end FacesHttp3.Lib.Exec
