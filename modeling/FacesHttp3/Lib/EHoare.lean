import Mathlib.Data.Set.Defs

/-! # Triples for programs that may fail

`EStateM` keeps the state an error was raised in, as a Rust function that
returns early from a `Result` does. A triple has one postcondition for the
returned value and one for the error. -/

namespace FacesHttp3.Lib.EHoare

variable {ε σ α β : Type}

def Triple (P : σ → Prop) (m : EStateM ε σ α) (Q : α → σ → Prop) (E : ε → σ → Prop) : Prop :=
  ∀ s, P s → match m s with
    | .ok a t => Q a t
    | .error e t => E e t

variable {P P' : σ → Prop} {Q Q' : α → σ → Prop} {R : β → σ → Prop} {E E' : ε → σ → Prop}
  {m : EStateM ε σ α}

namespace Triple

theorem ok (h : Triple P m Q E) {s t : σ} {a : α} (hp : P s) (hm : m s = .ok a t) : Q a t := by
  have := h s hp
  rwa [hm] at this

theorem error (h : Triple P m Q E) {s t : σ} {e : ε} (hp : P s) (hm : m s = .error e t) :
    E e t := by
  have := h s hp
  rwa [hm] at this

theorem pure (a : α) (h : ∀ s, P s → Q a s) : Triple P (pure a) Q E := h

theorem throw (e : ε) (h : ∀ s, P s → E e s) :
    Triple P (throw e : EStateM ε σ α) Q E := h

theorem modify (f : σ → σ) {Q : Unit → σ → Prop} (h : ∀ s, P s → Q () (f s)) :
    Triple P (modify f : EStateM ε σ Unit) Q E := h

theorem bind {f : α → EStateM ε σ β} (hm : Triple P m Q E) (hf : ∀ a, Triple (Q a) (f a) R E) :
    Triple P (m >>= f) R E := by
  intro s hp
  change match EStateM.bind m f s with | .ok a t => R a t | .error e t => E e t
  unfold EStateM.bind
  cases h : m s with
  | ok a t => exact hf a t (hm.ok hp h)
  | error e t => exact hm.error hp h

/-- Reading the state names it in what follows. -/
theorem get_bind {f : σ → EStateM ε σ β} (h : ∀ s, P s → Triple (· = s) (f s) R E) :
    Triple P (get >>= f) R E := fun s hp => h s hp s rfl

/-- The handler sees the state the error was raised in. -/
theorem tryCatch {f : ε → EStateM ε σ α} (hm : Triple P m Q E')
    (hf : ∀ e, Triple (E' e) (f e) Q E) : Triple P (tryCatch m f) Q E := by
  intro s hp
  change match EStateM.tryCatch m f s with | .ok a t => Q a t | .error e t => E e t
  unfold EStateM.tryCatch
  cases h : m s with
  | ok a t => simpa using hm.ok hp h
  | error e t => exact hf e t (hm.error hp h)

theorem conseq (h : Triple P m Q E) (hp : ∀ s, P' s → P s) (hq : ∀ a s, Q a s → Q' a s)
    (he : ∀ e s, E e s → E' e s) : Triple P' m Q' E' := by
  intro s hs
  have := h s (hp s hs)
  cases hm : m s with
  | ok a t => exact hq a t (by rwa [hm] at this)
  | error e t => exact he e t (by rwa [hm] at this)

theorem ite {c : Prop} [Decidable c] {n : EStateM ε σ α} (ht : c → Triple P m Q E)
    (hf : ¬ c → Triple P n Q E) : Triple P (if c then m else n) Q E := by
  split
  · exact ht ‹_›
  · exact hf ‹_›

end Triple

/-! ## Frames -/

variable {τ : Type} {view : σ → τ}

/-- The program leaves what `view` sees, whether it returns or fails. -/
def Frame (view : σ → τ) (m : EStateM ε σ α) : Prop :=
  ∀ s, match m s with
    | .ok _ t => view t = view s
    | .error _ t => view t = view s

namespace Frame

theorem ok (h : Frame view m) {s t : σ} {a : α} (hm : m s = .ok a t) : view t = view s := by
  have := h s
  rwa [hm] at this

theorem error (h : Frame view m) {s t : σ} {e : ε} (hm : m s = .error e t) :
    view t = view s := by
  have := h s
  rwa [hm] at this

theorem pure (a : α) : Frame view (pure a : EStateM ε σ α) := fun _ => rfl

theorem throw (e : ε) : Frame view (throw e : EStateM ε σ α) := fun _ => rfl

theorem modify {f : σ → σ} (h : ∀ s, view (f s) = view s) :
    Frame view (modify f : EStateM ε σ Unit) := h

theorem bind {f : α → EStateM ε σ β} (hm : Frame view m) (hf : ∀ a, Frame view (f a)) :
    Frame view (m >>= f) := by
  intro s
  change match EStateM.bind m f s with | .ok _ t => view t = view s | .error _ t => view t = view s
  unfold EStateM.bind
  cases h : m s with
  | error e t => exact hm.error h
  | ok a t =>
    have hrest := hf a t
    rw [hm.ok h] at hrest
    exact hrest

theorem get_bind {f : σ → EStateM ε σ β} (h : ∀ s, Frame view (f s)) : Frame view (get >>= f) :=
  bind (fun _ => rfl) h

theorem tryCatch {f : ε → EStateM ε σ α} (hm : Frame view m) (hf : ∀ e, Frame view (f e)) :
    Frame view (tryCatch m f) := by
  intro s
  change match EStateM.tryCatch m f s with
    | .ok _ t => view t = view s
    | .error _ t => view t = view s
  unfold EStateM.tryCatch
  cases h : m s with
  | ok a t => exact hm.ok h
  | error e t =>
    have hhandler := hf e t
    rw [hm.error h] at hhandler
    exact hhandler

theorem ite {c : Prop} [Decidable c] {n : EStateM ε σ α} (ht : Frame view m)
    (hf : Frame view n) : Frame view (if c then m else n) := by
  split
  · exact ht
  · exact hf

end Frame
end FacesHttp3.Lib.EHoare
