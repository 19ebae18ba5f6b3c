import Mathlib.Data.List.DropRight
import Mathlib.Data.List.Induction

/-!
# Lists without what is at their ends

What `dropWhile` and `rdropWhile` leave of a list taken apart at an element that stays.
-/

namespace Lib

variable {α : Type} {p : α → Bool}

/-- A list begins with an element that stays, once the others are dropped. -/
theorem dropWhile_head (p : α → Bool) (s : List α) : ∀ c ∈ (s.dropWhile p).head?, p c = false := by
  intro c hc
  have hnot := List.head?_dropWhile_not p s
  rw [Option.mem_def.1 hc] at hnot
  exact hnot

/-- Its first elements begin with the same one. -/
theorem head_of_prefix {s s' : List α} (hs : s' <+: s) (h : ∀ c ∈ s.head?, p c = false) : ∀ c ∈ s'.head?, p c = false := by
  intro c hc
  obtain ⟨rest, rfl⟩ := hs
  refine h c ?_
  rw [List.head?_append, Option.mem_def.1 hc]
  rfl

/-- Nothing is dropped off a list whose first element stays. -/
theorem dropWhile_eq_self {s : List α} (h : ∀ c ∈ s.head?, p c = false) : s.dropWhile p = s := by
  cases s with
  | nil => rfl
  | cons c s => rw [List.dropWhile_cons_of_neg (by simpa using h c rfl)]

/-- A list is dropped up to the rest whose first element stays. -/
theorem dropWhile_span {s rest : List α} (hs : ∀ c ∈ s, p c = true) (hrest : ∀ c ∈ rest.head?, p c = false) :
    (s ++ rest).dropWhile p = rest := by
  rw [List.dropWhile_append_of_pos hs, dropWhile_eq_self hrest]

/-- The two ends can be dropped in either order. -/
theorem rdropWhile_dropWhile (p : α → Bool) (s : List α) : (s.dropWhile p).rdropWhile p = (s.rdropWhile p).dropWhile p := by
  induction s using List.reverseRecOn with
  | nil => rfl
  | append_singleton s c ih =>
    rw [List.dropWhile_append]
    by_cases hc : p c = true
    · rw [List.rdropWhile_concat_pos _ _ _ hc, ← ih]
      split
      · next hnone =>
        rw [List.isEmpty_iff.1 hnone, List.dropWhile_cons_of_pos hc]
        rfl
      · rw [List.rdropWhile_concat_pos _ _ _ hc]
    · rw [List.rdropWhile_concat_neg _ _ _ hc, List.dropWhile_append, List.dropWhile_cons_of_neg hc]
      split
      · rw [List.rdropWhile_singleton, if_neg hc]
      · rw [List.rdropWhile_concat_neg _ _ _ hc]

/-- What is dropped at the end goes no further than an element that stays. -/
theorem rdropWhile_keeps {c : α} (hc : p c = false) (start rest : List α) :
    (start ++ c :: rest).rdropWhile p = start ++ c :: rest.rdropWhile p := by
  induction rest using List.reverseRecOn with
  | nil => rw [List.rdropWhile_concat_neg _ _ _ (by simp [hc]), List.rdropWhile_nil]
  | append_singleton rest d ih =>
    rw [← List.cons_append, ← List.append_assoc]
    by_cases hd : p d = true
    · rw [List.rdropWhile_concat_pos _ _ _ hd, List.rdropWhile_concat_pos _ _ _ hd, ih]
    · rw [List.rdropWhile_concat_neg _ _ _ hd, List.rdropWhile_concat_neg _ _ _ hd]
      simp

/-- An end of elements that do not stay is dropped. -/
theorem rdropWhile_append_all {rest : List α} (h : ∀ c ∈ rest, p c = true) (start : List α) :
    (start ++ rest).rdropWhile p = start.rdropWhile p := by
  induction rest using List.reverseRecOn with
  | nil => rw [List.append_nil]
  | append_singleton rest d ih =>
    rw [← List.append_assoc, List.rdropWhile_concat_pos _ _ _ (h d (by simp)), ih (fun c hc => h c (by simp [hc]))]

end Lib
