import ModuleScaffold.Proofs.Text.Cut
import Mathlib.Data.List.TakeWhile

/-! # Pieces of a text

What is left of a text between its outer blanks, and what stands between its marks. -/

namespace ModuleScaffold.Text

/-! ## Between blanks -/

theorem trimLeft_eq_nil_iff {s : List Char} : trimLeft s = [] ↔ allBlank s = true := by
  rw [trimLeft, List.dropWhile_eq_nil_iff, allBlank, List.all_eq_true]

theorem trimRight_cons {c : Char} (h : isBlank c = false) (s : List Char) :
    trimRight (c :: s) = c :: trimRight s := by
  rw [trimRight]
  cases trimRight s with
  | nil => simp [h]
  | cons d kept => rfl

theorem isBlank_of_trimLeft_eq_cons {c : Char} {s rest : List Char} (h : trimLeft s = c :: rest) :
    isBlank c = false := by
  have hhead := List.head?_dropWhile_not isBlank s
  unfold trimLeft at h
  rw [h] at hhead
  simpa using hhead

theorem head?_trim (s : List Char) : (trim s).head? = (trimLeft s).head? := by
  unfold trim
  cases h : trimLeft s with
  | nil => rfl
  | cons c rest =>
    rw [trimRight_cons (isBlank_of_trimLeft_eq_cons h)]
    rfl

theorem trim_eq_nil_iff {s : List Char} : trim s = [] ↔ allBlank s = true := by
  rw [← trimLeft_eq_nil_iff, ← List.head?_eq_none_iff, head?_trim, List.head?_eq_none_iff]

theorem trim_cons {c : Char} (h : isBlank c = true) (s : List Char) : trim (c :: s) = trim s := by
  unfold trim trimLeft
  rw [List.dropWhile_cons_of_pos h]

theorem trim_append (s : List Char) {pad : List Char} (h : ∀ c ∈ pad, isBlank c = true) :
    trim (s ++ pad) = trim s := by
  unfold trim trimLeft
  rw [List.dropWhile_append]
  cases hs : s.dropWhile isBlank with
  | nil =>
    rw [List.dropWhile_eq_nil_iff.mpr h]
    rfl
  | cons c rest => exact trimRight_append _ _ h

theorem exists_eq_trimLeft (s : List Char) :
    ∃ before, s = before ++ trimLeft s ∧ ∀ c ∈ before, isBlank c = true :=
  ⟨s.takeWhile isBlank, List.takeWhile_append_dropWhile.symm, fun _ hc => List.mem_takeWhile_imp hc⟩

theorem exists_eq_trimRight (s : List Char) :
    ∃ after, s = trimRight s ++ after ∧ ∀ c ∈ after, isBlank c = true := by
  induction s with
  | nil => exact ⟨[], rfl, by simp⟩
  | cons c s ih =>
    obtain ⟨after, hs, hafter⟩ := ih
    rw [trimRight]
    cases hkept : trimRight s with
    | nil =>
      rw [hkept, List.nil_append] at hs
      cases hc : isBlank c with
      | true => exact ⟨c :: s, rfl, List.forall_mem_cons.mpr ⟨hc, by rw [hs]; exact hafter⟩⟩
      | false => exact ⟨s, rfl, by rw [hs]; exact hafter⟩
    | cons d kept =>
      rw [hkept] at hs
      exact ⟨after, by rw [hs]; simp, hafter⟩

/-- A text is its blanks on the left, what is left of it, and its blanks on the right. -/
theorem exists_eq_trim (s : List Char) :
    ∃ before after, s = before ++ trim s ++ after ∧ (∀ c ∈ before, isBlank c = true) ∧
      ∀ c ∈ after, isBlank c = true := by
  obtain ⟨before, hs, hbefore⟩ := exists_eq_trimLeft s
  obtain ⟨after, hleft, hafter⟩ := exists_eq_trimRight (trimLeft s)
  exact ⟨before, after, by rw [List.append_assoc, trim, ← hleft, ← hs], hbefore, hafter⟩

theorem getLast?_trimRight (s : List Char) : ∀ c ∈ (trimRight s).getLast?, isBlank c = false := by
  induction s with
  | nil => simp [trimRight]
  | cons c s ih =>
    rw [trimRight]
    cases hkept : trimRight s with
    | nil => cases hc : isBlank c <;> simp [hc]
    | cons d kept =>
      rw [hkept] at ih
      simpa using ih

theorem trim_trim (s : List Char) : trim (trim s) = trim s := by
  have hhead : ∀ c ∈ (trim s).head?, isBlank c = false := by
    intro c hc
    rw [head?_trim] at hc
    obtain ⟨rest, hrest⟩ := List.head?_eq_some_iff.mp hc
    exact isBlank_of_trimLeft_eq_cons hrest
  rw [trim, trimLeft_eq_self _ hhead]
  exact trimRight_eq_self _ (getLast?_trimRight _)

/-! ## Between marks -/

variable {mark : Char}

theorem splitAt?_eq_none_iff {s : List Char} : splitAt? mark s = none ↔ mark ∉ s := by
  induction s with
  | nil => simp [splitAt?]
  | cons c s ih =>
    rw [splitAt?]
    split
    · next hc => simp [hc]
    · next hc => simp [ih, Ne.symm hc]

theorem intercalate_splitAll (mark : Char) (s : List Char) : List.intercalate [mark] (splitAll mark s) = s := by
  induction s with
  | nil => rfl
  | cons c s ih =>
    rw [splitAll]
    cases hs : splitAll mark s with
    | nil => exact absurd hs (splitAll_ne_nil mark s)
    | cons first parts =>
      rw [hs] at ih
      split
      · next hc =>
        rw [List.intercalate_cons_cons, ih, hc]
        rfl
      · cases parts with
        | nil => simpa [List.intercalate] using ih
        | cons second parts =>
          rw [List.intercalate_cons_cons] at ih ⊢
          rw [← ih]
          rfl

theorem splitAll_intercalate {parts : List (List Char)} (hne : parts ≠ []) (h : ∀ part ∈ parts, mark ∉ part) :
    splitAll mark (List.intercalate [mark] parts) = parts := by
  induction parts with
  | nil => exact absurd rfl hne
  | cons first parts ih =>
    have hfirst := h first List.mem_cons_self
    cases parts with
    | nil => simpa [List.intercalate] using splitAll_of_not_mem mark first hfirst
    | cons second parts =>
      rw [List.intercalate_cons_cons, List.append_assoc, List.singleton_append, splitAll_append mark first _ hfirst,
        ih (by simp) fun part hpart => h part (List.mem_cons_of_mem _ hpart)]

/-- What is added behind the last mark of a text is added to its last part. -/
theorem exists_splitAll_append (s : List Char) {pad : List Char} (h : mark ∉ pad) :
    ∃ init last, splitAll mark s = init ++ [last] ∧ splitAll mark (s ++ pad) = init ++ [last ++ pad] := by
  induction s with
  | nil => exact ⟨[], [], rfl, splitAll_of_not_mem mark pad h⟩
  | cons c s ih =>
    obtain ⟨init, last, hs, hpad⟩ := ih
    rw [List.cons_append, splitAll, splitAll, hs, hpad]
    split
    · exact ⟨[] :: init, last, rfl, rfl⟩
    · cases init with
      | nil => exact ⟨[], c :: last, rfl, rfl⟩
      | cons first init => exact ⟨(c :: first) :: init, last, rfl, rfl⟩

theorem mem_intercalate {c : Char} {parts : List (List Char)} (h : c ∈ List.intercalate [mark] parts) :
    c = mark ∨ ∃ part ∈ parts, c ∈ part := by
  induction parts with
  | nil => cases h
  | cons first parts ih =>
    cases parts with
    | nil =>
      rw [List.intercalate_singleton] at h
      exact Or.inr ⟨first, List.mem_cons_self, h⟩
    | cons second parts =>
      rw [List.intercalate_cons_cons, List.mem_append, List.mem_append, List.mem_singleton] at h
      rcases h with (h | h) | h
      · exact Or.inr ⟨first, List.mem_cons_self, h⟩
      · exact Or.inl h
      · rcases ih h with h | ⟨part, hpart, h⟩
        · exact Or.inl h
        · exact Or.inr ⟨part, List.mem_cons_of_mem _ hpart, h⟩

theorem mem_of_mem_splitAll {c : Char} {part s : List Char} (h : part ∈ splitAll mark s) (hc : c ∈ part) : c ∈ s := by
  induction s generalizing part with
  | nil =>
    rw [splitAll, List.mem_singleton] at h
    rw [h] at hc
    exact hc
  | cons d s ih =>
    rw [splitAll] at h
    split at h
    · rcases List.mem_cons.mp h with rfl | h
      · cases hc
      · exact List.mem_cons_of_mem _ (ih h hc)
    · cases hs : splitAll mark s with
      | nil => exact absurd hs (splitAll_ne_nil mark s)
      | cons first parts =>
        rw [hs] at h ih
        rcases List.mem_cons.mp h with rfl | h
        · rcases List.mem_cons.mp hc with rfl | hc
          · exact List.mem_cons_self
          · exact List.mem_cons_of_mem _ (ih List.mem_cons_self hc)
        · exact List.mem_cons_of_mem _ (ih (List.mem_cons_of_mem _ h) hc)

end ModuleScaffold.Text
