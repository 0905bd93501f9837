import ModuleScaffold.Layout
import ModuleScaffold.Proofs.Text.Cut
import ModuleScaffold.Proofs.Text.Lines

/-! # What the layout of a file keeps

The layout takes away and adds blank lines only. Main statement: the other lines of a text are kept, all of them and
in their order. -/

namespace ModuleScaffold.Layout

/-- The lines that are not blank. -/
def fullLines (ls : List (List Char)) : List (List Char) := ls.filter fun l => !Text.allBlank l

theorem fullLines_append (ls ks : List (List Char)) : fullLines (ls ++ ks) = fullLines ls ++ fullLines ks :=
  List.filter_append ls ks

theorem fullLines_reverse (ls : List (List Char)) : fullLines ls.reverse = (fullLines ls).reverse :=
  List.filter_reverse

theorem mem_fullLines {l : List Char} {ls : List (List Char)} :
    l ∈ fullLines ls ↔ l ∈ ls ∧ Text.allBlank l = false := by
  simp [fullLines]

theorem fullLines_dropWhile_isEmpty (kept : List (List Char)) :
    fullLines (kept.dropWhile (·.isEmpty)) = fullLines kept := by
  induction kept with
  | nil => rfl
  | cons l kept ih =>
    rw [List.dropWhile_cons]
    split
    · next hl =>
      rw [List.isEmpty_iff.mp hl, ih]
      rfl
    · rfl

theorem fullLines_step (kept : List (List Char)) (line : List Char) :
    fullLines (step kept line) = fullLines [line] ++ fullLines kept := by
  unfold step
  split
  · next hblank =>
    have hline : fullLines [line] = [] := by simp [fullLines, hblank]
    rw [hline]
    split <;> rfl
  · split
    · rw [← List.singleton_append, fullLines_append, fullLines_dropWhile_isEmpty]
    · rw [← List.singleton_append, fullLines_append]

theorem fullLines_foldl_step (ls kept : List (List Char)) :
    fullLines (ls.foldl step kept) = (fullLines ls).reverse ++ fullLines kept := by
  induction ls generalizing kept with
  | nil => rfl
  | cons line ls ih =>
    have hone : (fullLines [line]).reverse = fullLines [line] := by rw [← fullLines_reverse]; rfl
    rw [List.foldl_cons, ih, fullLines_step, ← List.singleton_append (l := ls), fullLines_append, List.reverse_append,
      hone, List.append_assoc]

theorem fullLines_keptLines (ls : List (List Char)) : fullLines (keptLines ls) = fullLines ls := by
  rw [keptLines, fullLines_reverse, fullLines_dropWhile_isEmpty, fullLines_foldl_step]
  simp [fullLines]

/-! ## Lines that are kept as they are -/

/-- Whether the first character of a line after its blanks is there and is no closing brace. -/
def opens (line : List Char) : Bool := (Text.trimLeft line).head?.any (· != '\x7d')

theorem opens_append {front : List Char} (h : opens front = true) (rest : List Char) :
    opens (front ++ rest) = true := by
  unfold opens Text.trimLeft at h ⊢
  rw [List.dropWhile_append]
  cases hd : front.dropWhile Text.isBlank with
  | nil =>
    rw [hd] at h
    cases h
  | cons c word =>
    rw [hd] at h
    exact h

theorem ne_nil_of_opens {line : List Char} (h : opens line = true) : line ≠ [] := by
  rintro rfl
  cases h

theorem step_of_opens {line : List Char} (h : opens line = true) (kept : List (List Char)) :
    step kept line = line :: kept := by
  have hfull : Text.allBlank line = false := by
    cases hblank : Text.allBlank line with
    | false => rfl
    | true =>
      rw [opens, Text.trimLeft_of_allBlank hblank] at h
      cases h
  have hcloses : closes line = false := by
    unfold opens at h
    unfold closes
    cases hd : (Text.trimLeft line).head? with
    | none => rfl
    | some c =>
      rw [hd, Option.any_some, bne_iff_ne] at h
      simpa using h
  unfold step
  rw [hfull, hcloses]
  rfl

/-! ## Where a line that is kept comes from -/

theorem mem_step {l : List Char} {kept : List (List Char)} {line : List Char} (h : l ∈ step kept line) :
    l = [] ∨ (l = line ∧ Text.allBlank l = false) ∨ l ∈ kept := by
  unfold step at h
  split at h
  · split at h
    · exact Or.inr (Or.inr h)
    · rcases List.mem_cons.mp h with h | h
      · exact Or.inl h
      · exact Or.inr (Or.inr h)
  · next hfull =>
    have hline : l = line → l = line ∧ Text.allBlank l = false := by
      rintro rfl
      exact ⟨rfl, by simpa using hfull⟩
    split at h
    · rcases List.mem_cons.mp h with h | h
      · exact Or.inr (Or.inl (hline h))
      · exact Or.inr (Or.inr ((List.dropWhile_sublist _).mem h))
    · rcases List.mem_cons.mp h with h | h
      · exact Or.inr (Or.inl (hline h))
      · exact Or.inr (Or.inr h)

theorem mem_foldl_step {l : List Char} (ls : List (List Char)) {kept : List (List Char)}
    (h : l ∈ ls.foldl step kept) : l = [] ∨ (l ∈ ls ∧ Text.allBlank l = false) ∨ l ∈ kept := by
  induction ls generalizing kept with
  | nil => exact Or.inr (Or.inr h)
  | cons line ls ih =>
    rcases ih h with h | ⟨h, hfull⟩ | h
    · exact Or.inl h
    · exact Or.inr (Or.inl ⟨List.mem_cons_of_mem _ h, hfull⟩)
    · rcases mem_step h with h | ⟨rfl, hfull⟩ | h
      · exact Or.inl h
      · exact Or.inr (Or.inl ⟨List.mem_cons_self, hfull⟩)
      · exact Or.inr (Or.inr h)

/-- A line that is kept is empty, or it is a line of the text and not blank. -/
theorem mem_keptLines {l : List Char} {ls : List (List Char)} (h : l ∈ keptLines ls) :
    l = [] ∨ (l ∈ ls ∧ Text.allBlank l = false) := by
  rw [keptLines, List.mem_reverse] at h
  rcases mem_foldl_step ls ((List.dropWhile_sublist _).mem h) with h | h | h
  · exact Or.inl h
  · exact Or.inr h
  · cases h

/-- A line of a text that is not blank is a line of its layout. -/
theorem mem_lines_tidy {l : List Char} {s : String} (hm : l ∈ Text.lines s.toList)
    (hl : Text.allBlank l = false) (hline : Text.IsLine l) : l ∈ Text.lines (tidy s).toList := by
  unfold tidy
  rw [String.toList_ofList]
  apply Text.mem_lines_unlines _ hline
  have hfull := mem_fullLines.mpr ⟨hm, hl⟩
  rw [← fullLines_keptLines] at hfull
  exact (mem_fullLines.mp hfull).1

/-- The layout of lines consists of lines. -/
theorem isLine_of_mem_keptLines {l : List Char} {ls : List (List Char)} (h : l ∈ keptLines ls)
    (hls : ∀ l ∈ ls, Text.IsLine l) : Text.IsLine l := by
  rcases mem_keptLines h with rfl | ⟨h, -⟩
  · exact ⟨by simp, by simp⟩
  · exact hls l h

end ModuleScaffold.Layout
