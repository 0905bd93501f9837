import ModuleScaffold.Text.Line

/-! # Lines that are read back

A text that was put together from lines falls apart into the same lines. -/

namespace ModuleScaffold.Text

def IsLine (l : List Char) : Prop := '\n' ∉ l ∧ l.getLast? ≠ some '\r'

theorem linesFrom_collect {front : List Char} (h : '\n' ∉ front) (s before : List Char) :
    linesFrom before (front ++ s) = linesFrom (front.reverse ++ before) s := by
  induction front generalizing before with
  | nil => rfl
  | cons c front ih =>
    simp only [List.mem_cons, not_or] at h
    rw [List.cons_append, linesFrom, if_neg (Ne.symm h.1), ih h.2]
    simp

theorem linesFrom_append (before l rest : List Char) (h : '\n' ∉ l) :
    linesFrom before (l ++ '\n' :: rest) = closeLine (l.reverse ++ before) :: linesFrom [] rest := by
  rw [linesFrom_collect h, linesFrom, if_pos rfl]

theorem closeLine_reverse (l : List Char) (h : l.getLast? ≠ some '\r') : closeLine l.reverse = l := by
  rw [← List.head?_reverse] at h
  unfold closeLine
  split
  · next before he =>
    rw [he] at h
    simp at h
  · simp

theorem lines_cons (l rest : List Char) (h : IsLine l) : lines (l ++ '\n' :: rest) = l :: lines rest := by
  rw [lines, linesFrom_append _ _ _ h.1, List.append_nil, closeLine_reverse l h.2]
  rfl

theorem unlines_append (ls ks : List (List Char)) : unlines (ls ++ ks) = unlines ls ++ unlines ks := by
  induction ls with
  | nil => rfl
  | cons l ls ih => simp [unlines, ih]

theorem linesFrom_feed (before left right : List Char) :
    linesFrom before (left ++ '\n' :: right) = linesFrom before (left ++ ['\n']) ++ linesFrom [] right := by
  induction left generalizing before with
  | nil => simp [linesFrom]
  | cons c left ih =>
    rw [List.cons_append, List.cons_append, linesFrom, linesFrom]
    split
    · rw [ih, List.cons_append]
    · exact ih (c :: before)

theorem lines_unlines {ls : List (List Char)} (h : ∀ l ∈ ls, IsLine l) : lines (unlines ls) = ls := by
  induction ls with
  | nil => rfl
  | cons l ls ih =>
    rw [unlines, lines_cons l _ (h l List.mem_cons_self), ih fun k hk => h k (List.mem_cons_of_mem _ hk)]

/-- A line is among the lines of a text that it was put into, whatever the others are. -/
theorem mem_lines_unlines {l : List Char} {ls : List (List Char)} (hm : l ∈ ls) (hl : IsLine l) :
    l ∈ lines (unlines ls) := by
  induction ls with
  | nil => cases hm
  | cons k ls ih =>
    rw [unlines]
    rcases List.mem_cons.mp hm with rfl | hm
    · rw [lines_cons l _ hl]
      exact List.mem_cons_self
    · have hfeed := linesFrom_feed [] k (unlines ls)
      rw [lines, hfeed]
      exact List.mem_append_right _ (ih hm)

/-! ## Where the lines of a text come from -/

theorem mem_of_mem_closeLine {c : Char} {before : List Char} (h : c ∈ closeLine before) : c ∈ before := by
  unfold closeLine at h
  split at h
  · exact List.mem_cons_of_mem _ (List.mem_reverse.mp h)
  · exact List.mem_reverse.mp h

theorem mem_of_mem_linesFrom {c : Char} {s before l : List Char} (hl : l ∈ linesFrom before s) (hc : c ∈ l) :
    c ∈ before ∨ (c ∈ s ∧ c ≠ '\n') := by
  induction s generalizing before with
  | nil =>
    rw [linesFrom] at hl
    split at hl
    · cases hl
    · rw [List.mem_singleton.mp hl] at hc
      exact Or.inl (List.mem_reverse.mp hc)
  | cons d s ih =>
    rw [linesFrom] at hl
    split at hl
    · rcases List.mem_cons.mp hl with rfl | hl
      · exact Or.inl (mem_of_mem_closeLine hc)
      · rcases ih hl with h | ⟨hs, hne⟩
        · cases h
        · exact Or.inr ⟨List.mem_cons_of_mem _ hs, hne⟩
    · next hd =>
      rcases ih hl with h | ⟨hs, hne⟩
      · rcases List.mem_cons.mp h with rfl | h
        · exact Or.inr ⟨List.mem_cons_self, hd⟩
        · exact Or.inl h
      · exact Or.inr ⟨List.mem_cons_of_mem _ hs, hne⟩

/-- A character of a line stands in the text and is no line feed. -/
theorem mem_of_mem_lines {c : Char} {s l : List Char} (hl : l ∈ lines s) (hc : c ∈ l) : c ∈ s ∧ c ≠ '\n' := by
  rcases mem_of_mem_linesFrom hl hc with h | h
  · cases h
  · exact h

theorem closeLine_first {front : List Char} (h : front.getLast? ≠ some '\r') (before : List Char) :
    ∃ row, closeLine (before ++ front.reverse) = front ++ row := by
  cases before with
  | nil => exact ⟨[], by rw [List.nil_append, closeLine_reverse front h, List.append_nil]⟩
  | cons c before =>
    rw [List.cons_append, closeLine.eq_def]
    split
    · next inner hinner =>
      obtain ⟨-, rfl⟩ := List.cons.inj hinner
      exact ⟨before.reverse, by simp⟩
    · exact ⟨(c :: before).reverse, by simp⟩

theorem linesFrom_first {front : List Char} (h : front.getLast? ≠ some '\r') (hne : front ≠ [])
    (s before : List Char) : ∃ row rest, linesFrom (before ++ front.reverse) s = (front ++ row) :: rest := by
  induction s generalizing before with
  | nil => exact ⟨before.reverse, [], by simp [linesFrom, hne]⟩
  | cons c s ih =>
    rw [linesFrom]
    split
    · obtain ⟨row, hrow⟩ := closeLine_first h before
      exact ⟨row, linesFrom [] s, by rw [hrow]⟩
    · exact ih (c :: before)

/-- The first line of a text begins as the text does. -/
theorem lines_first {front : List Char} (h : IsLine front) (hne : front ≠ []) (s : List Char) :
    ∃ row rest, lines (front ++ s) = (front ++ row) :: rest := by
  rw [lines, linesFrom_collect h.1, List.append_nil]
  exact linesFrom_first h.2 hne s []

/-! ## Texts of strings -/

def charsOf (ls : List String) : List Char := unlines (ls.map String.toList)

theorem toList_ofLines (ls : List String) : (ofLines ls).toList = charsOf ls := by
  unfold ofLines charsOf
  rw [String.toList_join]
  induction ls with
  | nil => rfl
  | cons l ls ih => simp [unlines, ih]

@[simp] theorem charsOf_nil : charsOf [] = [] := rfl

@[simp] theorem charsOf_cons (l : String) (ls : List String) :
    charsOf (l :: ls) = l.toList ++ '\n' :: charsOf ls := rfl

@[simp] theorem charsOf_append (ls ks : List String) : charsOf (ls ++ ks) = charsOf ls ++ charsOf ks := by
  simp [charsOf, unlines_append]

/-- The lines of a text end where the strings of it end, whatever they hold. -/
theorem lines_charsOf_append (ls ks : List String) :
    lines (charsOf (ls ++ ks)) = lines (charsOf ls) ++ lines (charsOf ks) := by
  induction ls with
  | nil => rfl
  | cons l ls ih =>
    have hwhole := linesFrom_feed [] l.toList (charsOf (ls ++ ks))
    have hfirst := linesFrom_feed [] l.toList (charsOf ls)
    rw [List.cons_append, charsOf_cons, charsOf_cons]
    unfold lines at ih ⊢
    rw [hwhole, hfirst, ih, List.append_assoc]

theorem lines_charsOf_singleton {l : String} (h : IsLine l.toList) : lines (charsOf [l]) = [l.toList] :=
  lines_cons _ [] h

end ModuleScaffold.Text
