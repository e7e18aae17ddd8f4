import Mathlib.Data.List.Nodup
import Mathlib.Data.List.Count

/-! # Taking turns

A line whose head takes a turn and goes back to its end, while others join the line
anywhere and leave it. Two that stay in the line take their turns alternately. -/

namespace FacesHttp3.Lib.RoundRobin

variable {κ : Type*}

/-- What can happen to the line, and who takes a turn by it. -/
inductive Move : List κ → Option κ → List κ → Prop
  | take (k : κ) (line : List κ) : Move (k :: line) (some k) (line ++ [k])
  | join {k : κ} {front back : List κ} (new : k ∉ front ++ back) :
    Move (front ++ back) none (front ++ k :: back)
  | leave (k : κ) (front back : List κ) : Move (front ++ k :: back) none (front ++ back)
  | rest (line : List κ) : Move line none line

/-- Moves through lines that all meet `P`, and who took the turns. -/
inductive Moves (P : List κ → Prop) (line : List κ) : List κ → List κ → Prop
  | nil : Moves P line [] line
  | snoc {taken before after : List κ} {k : Option κ} (moves : Moves P line taken before)
    (move : Move before k after) (meets : P after) : Moves P line (taken ++ k.toList) after

theorem Move.nodup {line line' : List κ} {k : Option κ} (h : Move line k line') (nodup : line.Nodup) :
    line'.Nodup := by
  cases h with
  | take k line => exact (List.perm_append_singleton k line).nodup_iff.mpr nodup
  | join new => exact List.nodup_middle.mpr (List.nodup_cons.mpr ⟨new, nodup⟩)
  | leave k front back => exact (List.nodup_cons.mp (List.nodup_middle.mp nodup)).2
  | rest => exact nodup

theorem Moves.nodup {P : List κ → Prop} {line taken line' : List κ} (h : Moves P line taken line')
    (nodup : line.Nodup) : line'.Nodup := by
  induction h with
  | nil => exact nodup
  | snoc _ move _ ih => exact move.nodup ih

variable [BEq κ] [LawfulBEq κ] {a b : κ}

/-- The order in which the two stand in the line. -/
def pair (a b : κ) (line : List κ) : List κ := line.filter fun k => k == a || k == b

omit [LawfulBEq κ] in
theorem pair_append (front back : List κ) : pair a b (front ++ back) = pair a b front ++ pair a b back :=
  List.filter_append ..

theorem pair_singleton_of_ne {k : κ} (ha : k ≠ a) (hb : k ≠ b) : pair a b [k] = [] := by
  simp [pair, ha, hb]

theorem pair_singleton {k : κ} (h : k = a ∨ k = b) : pair a b [k] = [k] := by simp [pair, h]

/-- Anyone else between two parts of the line does not count. -/
theorem pair_middle {k : κ} {front back : List κ} (ha : k ≠ a) (hb : k ≠ b) :
    pair a b (front ++ k :: back) = pair a b (front ++ back) := by
  rw [List.append_cons, pair_append, pair_append, pair_singleton_of_ne ha hb, List.append_nil,
    ← pair_append]

theorem pair_perm {line : List κ} (hne : a ≠ b) (nodup : line.Nodup) (ha : a ∈ line) (hb : b ∈ line) :
    (pair a b line).Perm [a, b] := by
  refine (List.perm_ext_iff_of_nodup (nodup.filter _) (by simp [hne])).mpr fun k => ?_
  constructor
  · intro hk
    simpa [pair] using (List.mem_filter.mp hk).2
  · intro hk
    rcases List.mem_pair.mp hk with rfl | rfl
    · exact List.mem_filter.mpr ⟨ha, by simp⟩
    · exact List.mem_filter.mpr ⟨hb, by simp⟩

theorem pair_cases {line : List κ} (hne : a ≠ b) (nodup : line.Nodup) (ha : a ∈ line) (hb : b ∈ line) :
    pair a b line = [a, b] ∨ pair a b line = [b, a] := by
  have hperm := pair_perm hne nodup ha hb
  obtain ⟨x, y, hpair⟩ := List.length_eq_two.mp hperm.length_eq
  rw [hpair] at hperm ⊢
  rcases List.mem_pair.mp (hperm.mem_iff.mp List.mem_cons_self) with rfl | rfl
  · rw [List.singleton_perm_singleton.mp ((List.perm_cons x).mp hperm)]
    exact .inl rfl
  · have hswap := hperm.trans (List.Perm.swap x a [])
    rw [List.singleton_perm_singleton.mp ((List.perm_cons x).mp hswap)]
    exact .inr rfl

/-- Only a turn of one of the two changes their order: it was the first of them. -/
theorem Move.turns {line line' : List κ} {k : Option κ} (h : Move line k line') (nodup : line.Nodup)
    (before : a ∈ line ∧ b ∈ line) (after : a ∈ line' ∧ b ∈ line') :
    (pair a b line' = pair a b line ∧ a ∉ k ∧ b ∉ k) ∨
    ∃ first, k = some first ∧ (first = a ∨ first = b) ∧
      ∃ rest, pair a b line = first :: rest ∧ pair a b line' = rest ++ [first] := by
  cases h with
  | take k line =>
    by_cases hk : k = a ∨ k = b
    · refine .inr ⟨k, rfl, hk, pair a b line, ?_, ?_⟩
      · rw [← List.singleton_append, pair_append, pair_singleton hk, List.singleton_append]
      · rw [pair_append, pair_singleton hk]
    · rw [not_or] at hk
      refine .inl ⟨?_, by simpa using hk.1, by simpa using hk.2⟩
      rw [pair_append, pair_singleton_of_ne hk.1 hk.2, List.append_nil,
        ← List.nil_append (k :: line), pair_middle hk.1 hk.2, List.nil_append]
  | join new =>
    refine .inl ⟨pair_middle ?_ ?_, by simp, by simp⟩
    · rintro rfl
      exact new before.1
    · rintro rfl
      exact new before.2
  | leave k front back =>
    have hgone : k ∉ front ++ back := (List.nodup_cons.mp (List.nodup_middle.mp nodup)).1
    refine .inl ⟨(pair_middle ?_ ?_).symm, by simp, by simp⟩
    · rintro rfl
      exact hgone after.1
    · rintro rfl
      exact hgone after.2
  | rest => exact .inl ⟨rfl, by simp, by simp⟩

/-- From the order `a`, `b` on, `a` is ahead by one turn exactly while it stands behind. -/
theorem Moves.ahead {line taken line' : List κ} (hne : a ≠ b) (nodup : line.Nodup)
    (start : pair a b line = [a, b]) (here : a ∈ line ∧ b ∈ line)
    (h : Moves (fun line => a ∈ line ∧ b ∈ line) line taken line') :
    (a ∈ line' ∧ b ∈ line') ∧
    ((pair a b line' = [a, b] ∧ taken.count a = taken.count b) ∨
      (pair a b line' = [b, a] ∧ taken.count a = taken.count b + 1)) := by
  induction h with
  | nil => exact ⟨here, .inl ⟨start, rfl⟩⟩
  | @snoc taken before after k moves move meets ih =>
    obtain ⟨hbefore, hcount⟩ := ih
    refine ⟨meets, ?_⟩
    rcases move.turns (moves.nodup nodup) hbefore meets with
      ⟨hsame, hka, hkb⟩ | ⟨first, rfl, -, rest, hfirst, hlast⟩
    · have hnone : ∀ c, c ∉ k → k.toList.count c = 0 := by
        intro c hc
        exact List.count_eq_zero.mpr (by simpa using hc)
      rw [hsame, List.count_append, List.count_append, hnone a hka, hnone b hkb]
      exact hcount
    · simp only [Option.toList_some, List.count_append, List.count_singleton]
      rcases hcount with ⟨hpair, hcount⟩ | ⟨hpair, hcount⟩
      · obtain ⟨rfl, rfl⟩ := List.cons.inj (hpair.symm.trans hfirst)
        refine .inr ⟨hlast, ?_⟩
        simp [hne, hcount]
      · obtain ⟨rfl, rfl⟩ := List.cons.inj (hpair.symm.trans hfirst)
        refine .inl ⟨hlast, ?_⟩
        simp [hne.symm, hcount]

/-- Two that stay in the line have taken as many turns, or one of them one more. -/
theorem Moves.even {line taken line' : List κ} (nodup : line.Nodup) (here : a ∈ line ∧ b ∈ line)
    (h : Moves (fun line => a ∈ line ∧ b ∈ line) line taken line') :
    taken.count a ≤ taken.count b + 1 := by
  by_cases hne : a = b
  · subst hne
    exact Nat.le_succ _
  rcases pair_cases hne nodup here.1 here.2 with hpair | hpair
  · obtain ⟨-, ⟨-, hcount⟩ | ⟨-, hcount⟩⟩ := h.ahead hne nodup hpair here <;> omega
  · have hswapped : pair b a line = [b, a] := by
      rw [← hpair]
      simp only [pair, Bool.or_comm]
    have h' : Moves (fun line => b ∈ line ∧ a ∈ line) line taken line' := by
      simpa only [and_comm] using h
    obtain ⟨-, ⟨-, hcount⟩ | ⟨-, hcount⟩⟩ := h'.ahead (Ne.symm hne) nodup hswapped here.symm <;> omega

end FacesHttp3.Lib.RoundRobin
