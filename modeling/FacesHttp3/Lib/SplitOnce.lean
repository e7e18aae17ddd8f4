import Mathlib.Data.List.Basic

/-! # Splitting a text at a separator

`splitOnce` cuts at the first occurrence of a separator, `List.splitOn` at each of
them. -/

namespace FacesHttp3.Lib.SplitOnce

variable {α : Type*} [DecidableEq α]

/-- The parts before and after the first `sep`. -/
def splitOnce (sep : α) : List α → Option (List α × List α)
  | [] => none
  | c :: cs =>
    if c = sep then some ([], cs)
    else (splitOnce sep cs).map fun parts => (c :: parts.1, parts.2)

theorem splitOnce_eq_none_iff (sep : α) (cs : List α) : splitOnce sep cs = none ↔ sep ∉ cs := by
  induction cs with
  | nil => simp [splitOnce]
  | cons c cs ih =>
    by_cases h : c = sep
    · simp [splitOnce, h]
    · simp [splitOnce, h, ih, Ne.symm h]

theorem splitOnce_append {sep : α} {before : List α} (after : List α) (h : sep ∉ before) :
    splitOnce sep (before ++ sep :: after) = some (before, after) := by
  induction before with
  | nil => simp [splitOnce]
  | cons c cs ih =>
    obtain ⟨hc, hcs⟩ := not_or.mp (List.mem_cons.not.mp h)
    simp [splitOnce, Ne.symm hc, ih hcs]

theorem splitOnce_eq_some_iff {sep : α} {cs before after : List α} :
    splitOnce sep cs = some (before, after) ↔ cs = before ++ sep :: after ∧ sep ∉ before := by
  constructor
  · induction cs generalizing before with
    | nil => simp [splitOnce]
    | cons c cs ih =>
      intro h
      by_cases hc : c = sep
      · simp only [splitOnce, hc, if_true, Option.some.injEq, Prod.mk.injEq] at h
        obtain ⟨rfl, rfl⟩ := h
        simp [hc]
      · simp only [splitOnce, hc, if_false, Option.map_eq_some_iff, Prod.mk.injEq] at h
        obtain ⟨⟨b, a⟩, hs, rfl, rfl⟩ := h
        obtain ⟨rfl, hb⟩ := ih hs
        simp [hb, Ne.symm hc]
  · rintro ⟨rfl, h⟩
    exact splitOnce_append after h

/-- Joined texts come apart again, also where one of them holds the separator itself. -/
theorem splitOn_intercalate_flatMap (sep : α) {texts : List (List α)} (h : texts ≠ []) :
    ([sep].intercalate texts).splitOn sep = texts.flatMap (List.splitOn sep) := by
  induction texts with
  | nil => exact absurd rfl h
  | cons text texts ih =>
    cases texts with
    | nil => simp
    | cons next texts =>
      rw [List.intercalate_cons_cons, List.append_assoc, List.singleton_append,
        List.splitOn_append_cons_self, ih (List.cons_ne_nil next texts)]
      exact List.flatMap_cons.symm

theorem mem_of_mem_splitOn {sep c : α} {text part : List α} (hpart : part ∈ text.splitOn sep)
    (hc : c ∈ part) : c ∈ text := by
  induction text generalizing part with
  | nil => simp_all
  | cons d text ih =>
    rw [List.splitOn_cons_eq_if_modifyHead] at hpart
    split at hpart
    · rcases List.mem_cons.mp hpart with rfl | hpart
      · simp at hc
      · exact List.mem_cons_of_mem _ (ih hpart hc)
    · -- the character goes to the head of the first part
      obtain ⟨head, parts, hsplit⟩ := List.exists_cons_of_ne_nil (List.splitOn_ne_nil sep text)
      rw [hsplit, List.modifyHead_cons] at hpart
      rcases List.mem_cons.mp hpart with rfl | hpart
      · rcases List.mem_cons.mp hc with rfl | hc
        · exact List.mem_cons_self
        · exact List.mem_cons_of_mem _ (ih (hsplit ▸ List.mem_cons_self) hc)
      · exact List.mem_cons_of_mem _ (ih (hsplit ▸ List.mem_cons_of_mem _ hpart) hc)

theorem not_mem_of_mem_splitOn {sep : α} {text part : List α} (hpart : part ∈ text.splitOn sep) :
    sep ∉ part := by
  induction text generalizing part with
  | nil => simp_all
  | cons d text ih =>
    rw [List.splitOn_cons_eq_if_modifyHead] at hpart
    split at hpart
    · rcases List.mem_cons.mp hpart with rfl | hpart
      · exact List.not_mem_nil
      · exact ih hpart
    · rename_i hd
      obtain ⟨head, parts, hsplit⟩ := List.exists_cons_of_ne_nil (List.splitOn_ne_nil sep text)
      rw [hsplit, List.modifyHead_cons] at hpart
      rcases List.mem_cons.mp hpart with rfl | hpart
      · rw [List.mem_cons, not_or]
        exact ⟨fun h => hd (by simp [h]), ih (hsplit ▸ List.mem_cons_self)⟩
      · exact ih (hsplit ▸ List.mem_cons_of_mem _ hpart)

end FacesHttp3.Lib.SplitOnce
