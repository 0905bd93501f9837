import ModuleScaffold.Text.Blank
import ModuleScaffold.Text.Split

/-! # Cutting what was put together

A text is cut at the mark that joins its parts, and blanks around a part are taken off again. -/

namespace ModuleScaffold.Text

/-! ## Blanks -/

theorem trimLeft_append (pad s : List Char) (h : ∀ c ∈ pad, isBlank c = true) :
    trimLeft (pad ++ s) = trimLeft s := by
  unfold trimLeft
  rw [List.dropWhile_append_of_pos h]

theorem trimLeft_of_allBlank {s : List Char} (h : allBlank s = true) : trimLeft s = [] := by
  have hall := trimLeft_append s [] (List.all_eq_true.mp h)
  rwa [List.append_nil] at hall

theorem trimLeft_eq_self (s : List Char) (h : ∀ c ∈ s.head?, isBlank c = false) : trimLeft s = s := by
  cases s with
  | nil => rfl
  | cons c s =>
    have hc : isBlank c = false := h c rfl
    simp [trimLeft, hc]

theorem trimRight_append (s pad : List Char) (h : ∀ c ∈ pad, isBlank c = true) :
    trimRight (s ++ pad) = trimRight s := by
  induction s with
  | nil => rw [List.nil_append, (trimRight_eq_nil_iff pad).2 h]; rfl
  | cons c s ih => rw [List.cons_append, trimRight, trimRight, ih]

theorem trimRight_eq_self (s : List Char) (h : ∀ c ∈ s.getLast?, isBlank c = false) : trimRight s = s := by
  induction s with
  | nil => rfl
  | cons c s ih =>
    rw [trimRight]
    cases s with
    | nil =>
      have hc : isBlank c = false := h c rfl
      simp [trimRight, hc]
    | cons d s =>
      rw [ih fun x hx => h x (by rw [List.getLast?_cons_cons]; exact hx)]

theorem trim_between (before s after : List Char) (hb : ∀ c ∈ before, isBlank c = true)
    (ha : ∀ c ∈ after, isBlank c = true) (hne : s ≠ []) (hhead : ∀ c ∈ s.head?, isBlank c = false)
    (hlast : ∀ c ∈ s.getLast?, isBlank c = false) : trim (before ++ s ++ after) = s := by
  have hhead' : ∀ c ∈ (s ++ after).head?, isBlank c = false := by
    cases s with
    | nil => exact absurd rfl hne
    | cons c s => exact hhead
  unfold trim
  rw [List.append_assoc, trimLeft_append _ _ hb, trimLeft_eq_self _ hhead', trimRight_append _ _ ha,
    trimRight_eq_self _ hlast]

/-! ## Marks -/

theorem splitAt?_append (mark : Char) (left right : List Char) (h : mark ∉ left) :
    splitAt? mark (left ++ mark :: right) = some (left, right) := by
  induction left with
  | nil => simp [splitAt?]
  | cons c left ih =>
    simp only [List.mem_cons, not_or] at h
    rw [List.cons_append, splitAt?, if_neg (Ne.symm h.1), ih h.2]
    rfl

theorem splitAll_ne_nil (mark : Char) (s : List Char) : splitAll mark s ≠ [] := by
  cases s with
  | nil => simp [splitAll]
  | cons c s =>
    rw [splitAll]
    split
    · simp
    · split <;> simp

theorem splitAll_of_not_mem (mark : Char) (s : List Char) (h : mark ∉ s) : splitAll mark s = [s] := by
  induction s with
  | nil => rfl
  | cons c s ih =>
    simp only [List.mem_cons, not_or] at h
    rw [splitAll, if_neg (Ne.symm h.1), ih h.2]

theorem splitAll_join (mark : Char) (left right : List Char) :
    splitAll mark (left ++ mark :: right) = splitAll mark left ++ splitAll mark right := by
  induction left with
  | nil => simp [splitAll]
  | cons c left ih =>
    rw [List.cons_append, splitAll, splitAll, ih]
    split
    · rfl
    · cases hl : splitAll mark left with
      | nil => exact absurd hl (splitAll_ne_nil mark left)
      | cons part parts => rfl

theorem splitAll_append (mark : Char) (left right : List Char) (h : mark ∉ left) :
    splitAll mark (left ++ mark :: right) = left :: splitAll mark right := by
  rw [splitAll_join, splitAll_of_not_mem mark left h]
  rfl

theorem beginsWith_append (c : Char) {s : List Char} (hs : s ≠ []) (t : List Char) :
    beginsWith [c] (s ++ t) = beginsWith [c] s := by
  cases s with
  | nil => exact absurd rfl hs
  | cons d s =>
    rw [List.cons_append, beginsWith, beginsWith]
    by_cases hd : c = d <;> simp [after?, hd]

theorem after?_append (word rest : List Char) : after? word (word ++ rest) = some rest :=
  after?_eq_some_iff.2 rfl

end ModuleScaffold.Text
