import ModuleScaffold.Text.Split
import Mathlib.Data.List.DropRight
import Mathlib.Data.List.Infix

/-! # Searching a text

A search asks at every place of a text, from the first one on, and answers at the first place that has an answer.
Main statement: what stands on one line up to the first place of a word. -/

namespace ModuleScaffold.Text

/-! ## Places of a word -/

/-- How often a word stands in a text. -/
def occurrences (word s : List Char) : Nat := s.tails.countP (beginsWith word)

theorem occurrences_cons (word : List Char) (c : Char) (s : List Char) :
    occurrences word (c :: s) = occurrences word s + if beginsWith word (c :: s) then 1 else 0 := by
  rw [occurrences, List.tails_cons, List.countP_cons]
  rfl

theorem occurrences_pos (word left right : List Char) : 0 < occurrences word (left ++ (word ++ right)) := by
  apply List.countP_pos_iff.mpr
  refine ⟨word ++ right, (List.mem_tails _ _).mpr (List.suffix_append left _), ?_⟩
  rw [beginsWith, after?_eq_some_iff.mpr rfl]
  rfl

theorem after?_of_occurrences {word s t : List Char} (h : occurrences word s = 0) (ht : t <:+ s) :
    after? word t = none := by
  have hnone := List.countP_eq_zero.mp h t ((List.mem_tails _ _).mpr ht)
  simpa [beginsWith] using hnone

/-- The word behind `left` is the first one of the text. -/
def IsFirst (word left right : List Char) : Prop :=
  ∀ rest, rest <:+ left → rest ≠ [] → after? word (rest ++ (word ++ right)) = none

theorem IsFirst.tail {word left right : List Char} {c : Char} (h : IsFirst word (c :: left) right) :
    IsFirst word left right :=
  fun rest hrest => h rest (hrest.trans (List.suffix_cons c left))

/-- A word that stands in a text once stands there first. -/
theorem isFirst_of_occurrences {word left right : List Char} (h : occurrences word (left ++ (word ++ right)) = 1) :
    IsFirst word left right := by
  induction left with
  | nil => exact fun rest hrest hne => absurd (List.suffix_nil.mp hrest) hne
  | cons c left ih =>
    rw [List.cons_append, occurrences_cons] at h
    have hpos := occurrences_pos word left right
    split at h
    · omega
    · next hbegins =>
      intro rest hrest hne
      rcases List.suffix_cons_iff.mp hrest with rfl | hrest
      · simpa [beginsWith] using hbegins
      · exact ih h rest hrest hne

/-! ## Searches -/

section Searches

variable {α : Type} {f : List Char → Option α} {s : List Char}

theorem firstFrom_of_some {x : α} (h : f s = some x) : firstFrom f s = some x := by
  cases s with
  | nil => exact h
  | cons c rest =>
    rw [firstFrom, h]
    rfl

theorem firstFrom_cons {c : Char} (h : f (c :: s) = none) : firstFrom f (c :: s) = firstFrom f s := by
  rw [firstFrom, h]
  rfl

theorem firstFrom_eq_none (h : ∀ t, t <:+ s → f t = none) : firstFrom f s = none := by
  induction s with
  | nil => exact h [] List.suffix_rfl
  | cons c s ih =>
    rw [firstFrom_cons (h (c :: s) List.suffix_rfl)]
    exact ih fun t ht => h t (ht.trans (List.suffix_cons c s))

end Searches

/-- A line that ends before the first place of the mark does not lead to it. -/
theorem untilOnLine?_of_isFirst {mark left right : List Char} (h : IsFirst mark left right) :
    untilOnLine? mark (left ++ (mark ++ right)) = if '\n' ∈ left then none else some (left, right) := by
  induction left with
  | nil =>
    have hafter : after? mark (mark ++ right) = some right := after?_eq_some_iff.mpr rfl
    rw [List.nil_append, if_neg List.not_mem_nil]
    cases hs : mark ++ right with
    | nil =>
      rw [hs] at hafter
      rw [untilOnLine?, hafter]
      rfl
    | cons c s =>
      rw [hs] at hafter
      rw [untilOnLine?, hafter]
  | cons c left ih =>
    have hnone := h (c :: left) List.suffix_rfl (by simp)
    rw [List.cons_append] at hnone ⊢
    rw [untilOnLine?, hnone, ih h.tail]
    by_cases hc : c = '\n'
    · simp [hc]
    · by_cases hfeed : '\n' ∈ left <;> simp [hc, Ne.symm hc, hfeed]

end ModuleScaffold.Text
