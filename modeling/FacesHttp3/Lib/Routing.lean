import Mathlib.Data.List.Basic
import Mathlib.Logic.Function.Basic

/-! # Messages over several queues

Each message has a key, and every key has one queue. A worker takes the messages of
its queue one after the other, and the workers are not in step. The messages of one
key are then handled in the order they were sent in, whatever the others do. -/

namespace FacesHttp3.Lib.Routing

variable {ι κ α : Type*} [DecidableEq κ]

/-- The messages of a key, in order. -/
def toKey (k : κ) (messages : List (κ × α)) : List α :=
  messages.filterMap fun message => if message.1 = k then some message.2 else none

@[simp] theorem toKey_nil (k : κ) : toKey k ([] : List (κ × α)) = [] := rfl

@[simp] theorem toKey_append (k : κ) (as bs : List (κ × α)) :
    toKey k (as ++ bs) = toKey k as ++ toKey k bs := List.filterMap_append

theorem toKey_cons (k : κ) (message : κ × α) (messages : List (κ × α)) :
    toKey k (message :: messages) =
      (if message.1 = k then [message.2] else []) ++ toKey k messages := by
  by_cases h : message.1 = k <;> simp [toKey, h]

theorem toKey_eq_nil_iff {k : κ} {messages : List (κ × α)} :
    toKey k messages = [] ↔ ∀ message ∈ messages, message.1 ≠ k := by
  simp [toKey, List.filterMap_eq_nil_iff]

/-- What was handled of a key, and then what stands in its queue, is what was sent. -/
structure InOrder (at_ : κ → ι) (sent handled : List (κ × α)) (line : ι → List (κ × α)) : Prop where
  routed : ∀ i, ∀ message ∈ line i, at_ message.1 = i
  order : ∀ k, toKey k handled ++ toKey k (line (at_ k)) = toKey k sent

namespace InOrder
variable {at_ : κ → ι} {sent handled : List (κ × α)} {line : ι → List (κ × α)}

theorem start (at_ : κ → ι) : InOrder at_ ([] : List (κ × α)) [] fun _ => [] :=
  ⟨fun _ _ h => (by cases h), fun _ => rfl⟩

/-- Everything in a queue was sent. -/
theorem sent_of_mem (h : InOrder at_ sent handled line) {i : ι} {message : κ × α}
    (hmem : message ∈ line i) : ∃ sentMessage ∈ sent, sentMessage.1 = message.1 := by
  by_contra hnone
  have hsent : toKey message.1 sent = [] := by
    rw [toKey_eq_nil_iff]
    exact fun m hm heq => hnone ⟨m, hm, heq⟩
  have horder := h.order message.1
  rw [hsent, List.append_eq_nil_iff, h.routed i message hmem] at horder
  exact toKey_eq_nil_iff.mp horder.2 message hmem rfl

/-- Keys of which nothing was sent may still be given another queue. -/
theorem reroute (h : InOrder at_ sent handled line) {at' : κ → ι}
    (hsame : ∀ message ∈ sent, at' message.1 = at_ message.1) : InOrder at' sent handled line := by
  have hold : ∀ i, ∀ message ∈ line i, at' message.1 = i := by
    intro i message hmem
    obtain ⟨m, hm, hkey⟩ := h.sent_of_mem hmem
    rw [← hkey, hsame m hm, hkey, h.routed i message hmem]
  refine ⟨hold, fun k => ?_⟩
  by_cases hk : ∃ message ∈ sent, message.1 = k
  · obtain ⟨message, hmem, rfl⟩ := hk
    rw [hsame message hmem]
    exact h.order message.1
  · have hsent : toKey k sent = [] := by
      rw [toKey_eq_nil_iff]
      exact fun m hm heq => hk ⟨m, hm, heq⟩
    have hline : toKey k (line (at' k)) = [] := by
      rw [toKey_eq_nil_iff]
      rintro message hmem rfl
      obtain ⟨m, hm, hkey⟩ := h.sent_of_mem hmem
      exact hk ⟨m, hm, hkey⟩
    have horder := h.order k
    rw [hsent, List.append_eq_nil_iff] at horder
    rw [hsent, hline, horder.1]
    rfl

variable [DecidableEq ι]

theorem send (h : InOrder at_ sent handled line) (message : κ × α) :
    InOrder at_ (sent ++ [message]) handled
      (Function.update line (at_ message.1) (line (at_ message.1) ++ [message])) := by
  refine ⟨fun i m hm => ?_, fun k => ?_⟩
  · rw [Function.update_apply] at hm
    split at hm
    · rename_i hi
      rcases List.mem_append.mp hm with hm | hm
      · rw [h.routed _ m hm, hi]
      · rw [List.mem_singleton.mp hm, hi]
    · exact h.routed i m hm
  · have horder := h.order k
    rw [toKey_append, ← horder, List.append_assoc, Function.update_apply]
    split
    · rename_i hi
      rw [toKey_append, hi]
    · rename_i hi
      have hne : message.1 ≠ k := fun heq => hi (by rw [heq])
      simp [toKey_cons, hne]

theorem take (h : InOrder at_ sent handled line) {i : ι} {message : κ × α} {rest : List (κ × α)}
    (hline : line i = message :: rest) :
    InOrder at_ sent (handled ++ [message]) (Function.update line i rest) := by
  have hat : at_ message.1 = i := h.routed i message (by simp [hline])
  refine ⟨fun j m hm => ?_, fun k => ?_⟩
  · rw [Function.update_apply] at hm
    split at hm
    · rename_i hj
      exact hj ▸ h.routed i m (by simp [hline, hm])
    · exact h.routed j m hm
  · have horder := h.order k
    rw [← horder, toKey_append, List.append_assoc, Function.update_apply]
    split
    · rename_i hk
      rw [hk, hline, ← toKey_append]
      rfl
    · rename_i hk
      have hne : message.1 ≠ k := fun heq => hk (by rw [← heq, hat])
      simp [toKey_cons, hne]

end InOrder

end FacesHttp3.Lib.Routing
