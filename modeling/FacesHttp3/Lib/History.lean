import Mathlib.Data.List.Basic

/-! # Positions in a growing history

Laws of a run often relate the order of its events. A position never moves when
the history grows, so it also serves as the identity of what an event created. -/

namespace FacesHttp3.Lib.History

variable {ε : Type*} {log : List ε} {e f : ε} {p q b : Nat} {P : ε → Prop}

/-- The event at a position. -/
def At (log : List ε) (p : Nat) (e : ε) : Prop := log[p]? = some e

theorem At.lt (h : At log p e) : p < log.length := (List.getElem?_eq_some_iff.mp h).1

theorem At.unique (h : At log p e) (h' : At log p f) : e = f := by
  rw [At, h] at h'
  exact Option.some.inj h'

theorem at_snoc_iff : At (log ++ [e]) p f ↔ At log p f ∨ (p = log.length ∧ f = e) := by
  unfold At
  rw [List.getElem?_append]
  split
  · rename_i hlt
    constructor
    · exact .inl
    · rintro (h | ⟨rfl, -⟩)
      · exact h
      · exact absurd hlt (Nat.lt_irrefl _)
  · rename_i hge
    rw [List.getElem?_singleton]
    constructor
    · intro h
      split at h
      · exact .inr ⟨by omega, (Option.some.inj h).symm⟩
      · cases h
    · rintro (h | ⟨rfl, rfl⟩)
      · exact absurd (At.lt h) hge
      · simp

theorem At.snoc (h : At log p f) : At (log ++ [e]) p f := at_snoc_iff.mpr (.inl h)

theorem at_length : At (log ++ [e]) log.length e := at_snoc_iff.mpr (.inr ⟨rfl, rfl⟩)

/-- No event of the kind has come after the position. -/
def ClearAfter (log : List ε) (b : Nat) (P : ε → Prop) : Prop :=
  ∀ p e, At log p e → b < p → ¬ P e

theorem ClearAfter.snoc (h : ClearAfter log b P) (he : ¬ P e) : ClearAfter (log ++ [e]) b P := by
  intro p f hf hp
  rcases at_snoc_iff.mp hf with hf | ⟨-, rfl⟩
  · exact h p f hf hp
  · exact he

theorem clearAfter_length : ClearAfter (log ++ [e]) log.length P := by
  intro p f hf hp
  have := hf.lt
  simp only [List.length_append, List.length_cons, List.length_nil] at this
  omega

/-- An event of the kind has come after the position. -/
def SeenAfter (log : List ε) (b : Nat) (P : ε → Prop) : Prop := ∃ p e, At log p e ∧ b < p ∧ P e

theorem SeenAfter.snoc (h : SeenAfter log b P) : SeenAfter (log ++ [e]) b P :=
  let ⟨p, f, hf, hp, hP⟩ := h
  ⟨p, f, hf.snoc, hp, hP⟩

theorem seenAfter_snoc_self (hb : b < log.length) (he : P e) : SeenAfter (log ++ [e]) b P :=
  ⟨log.length, e, at_length, hb, he⟩

end FacesHttp3.Lib.History
