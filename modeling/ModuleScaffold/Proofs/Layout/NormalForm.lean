import ModuleScaffold.Proofs.Layout
import ModuleScaffold.Proofs.Text.Pieces

/-! # The normal form of a file

A blank line survives as an empty one, directly before a line that is neither blank nor closes a brace. Main
statement: the layout of a text is its normal form, in which each line is judged by the line above it alone. -/

namespace ModuleScaffold

namespace Layout

theorem closes_iff (line : List Char) : closes line = true ↔ (Text.trim line).head? = some '\x7d' := by
  rw [Text.head?_trim]
  simp [closes]

/-! ## The normal form -/

/-- What becomes of a line below `above`: a blank line goes away, and below a blank line comes an empty one first,
unless the line closes a brace. -/
def arrange (above : Option (List Char)) (line : List Char) : List (List Char) :=
  if Text.trim line = [] then []
  else if above.map Text.trim = some [] ∧ (Text.trim line).head? ≠ some '\x7d' then [[], line]
  else [line]

/-- The normal form of lines below `above`. -/
def arrangedBelow (above : Option (List Char)) (ls : List (List Char)) : List (List Char) :=
  (ls.zip (above :: ls.map some)).flatMap fun (line, above) => arrange above line

/-- The normal form of the lines of a text. -/
def arranged (ls : List (List Char)) : List (List Char) := arrangedBelow none ls

@[simp] theorem arrangedBelow_nil (above : Option (List Char)) : arrangedBelow above [] = [] := rfl

@[simp] theorem arrangedBelow_cons (above : Option (List Char)) (line : List Char) (ls : List (List Char)) :
    arrangedBelow above (line :: ls) = arrange above line ++ arrangedBelow (some line) ls := rfl

/-- The empty line that may have to go before the next line. -/
def gap (above : Option (List Char)) : List (List Char) := if above.map Text.trim = some [] then [[]] else []

theorem arrange_blank {line : List Char} (h : Text.trim line = []) (above : Option (List Char)) :
    arrange above line = [] := if_pos h

theorem arrange_closing {line : List Char} (h : (Text.trim line).head? = some '\x7d') (above : Option (List Char)) :
    arrange above line = [line] := by
  have hfull : Text.trim line ≠ [] := by
    intro hblank
    rw [hblank] at h
    cases h
  simp [arrange, hfull, h]

theorem arrange_opening {line : List Char} (hfull : Text.trim line ≠ [])
    (h : (Text.trim line).head? ≠ some '\x7d') (above : Option (List Char)) :
    arrange above line = gap above ++ [line] := by
  unfold arrange gap
  rw [if_neg hfull]
  split
  · next hgap => rw [if_pos hgap.1]; rfl
  · next hgap => rw [if_neg fun habove => hgap ⟨habove, h⟩]; rfl

/-! ## The lines kept so far -/

/-- Lines of which the last one, if there is one, is not empty. -/
def EndsFull (rows : List (List Char)) : Prop := rows.reverse.head? ≠ some []

theorem endsFull_nil : EndsFull [] := by simp [EndsFull]

theorem endsFull_concat (rows : List (List Char)) {line : List Char} (h : Text.trim line ≠ []) :
    EndsFull (rows ++ [line]) := by
  unfold EndsFull
  rw [List.reverse_append, List.reverse_singleton, List.singleton_append, List.head?_cons]
  intro hline
  cases hline
  exact h rfl

theorem EndsFull.arrange {rows : List (List Char)} (h : EndsFull rows) (above : Option (List Char))
    (line : List Char) : EndsFull (rows ++ Layout.arrange above line) := by
  by_cases hblank : Text.trim line = []
  · rw [arrange_blank hblank, List.append_nil]
    exact h
  · by_cases hbrace : (Text.trim line).head? = some '\x7d'
    · rw [arrange_closing hbrace]
      exact endsFull_concat rows hblank
    · rw [arrange_opening hblank hbrace, ← List.append_assoc]
      exact endsFull_concat _ hblank

theorem EndsFull.dropWhile_gap {rows : List (List Char)} (h : EndsFull rows) (above : Option (List Char)) :
    (gap above ++ rows.reverse).dropWhile (·.isEmpty) = rows.reverse := by
  have hdrop : rows.reverse.dropWhile (·.isEmpty) = rows.reverse := by
    unfold EndsFull at h
    cases hrows : rows.reverse with
    | nil => rfl
    | cons last before =>
      rw [hrows, List.head?_cons, ne_eq, Option.some.injEq] at h
      exact List.dropWhile_cons_of_neg (by simpa using h)
  unfold gap
  split
  · exact hdrop
  · exact hdrop

/-- What is kept of a blank line waits behind the rows until the next line decides about it. -/
theorem step_gap {rows : List (List Char)} (h : EndsFull rows) (above : Option (List Char)) (line : List Char) :
    step (gap above ++ rows.reverse) line = gap (some line) ++ (rows ++ arrange above line).reverse := by
  unfold step
  by_cases hblank : Text.trim line = []
  · have hgap : gap (some line) = [[]] := by simp [gap, hblank]
    rw [if_pos (Text.trim_eq_nil_iff.mp hblank), arrange_blank hblank, List.append_nil, hgap]
    by_cases habove : above.map Text.trim = some []
    · rw [gap, if_pos habove]
      rfl
    · rw [gap, if_neg habove, List.nil_append]
      unfold EndsFull at h
      cases hrows : rows.reverse with
      | nil => rfl
      | cons last before =>
        cases last with
        | nil => exact absurd (by rw [hrows]; rfl) h
        | cons c last => rfl
  · have hgap : gap (some line) = [] := by simp [gap, hblank]
    rw [if_neg (mt Text.trim_eq_nil_iff.mpr hblank), hgap, List.nil_append]
    by_cases hbrace : (Text.trim line).head? = some '\x7d'
    · rw [if_pos ((closes_iff line).mpr hbrace), h.dropWhile_gap, arrange_closing hbrace, List.reverse_append]
      rfl
    · have hrev : (gap above).reverse = gap above := by
        unfold gap
        split <;> rfl
      rw [if_neg (mt (closes_iff line).mp hbrace), arrange_opening hblank hbrace, ← List.append_assoc,
        List.reverse_append, List.reverse_append, hrev]
      rfl

theorem foldl_step_gap (ls : List (List Char)) {rows : List (List Char)} (h : EndsFull rows)
    (above : Option (List Char)) : ∃ below,
      ls.foldl step (gap above ++ rows.reverse) = gap below ++ (rows ++ arrangedBelow above ls).reverse ∧
      EndsFull (rows ++ arrangedBelow above ls) := by
  induction ls generalizing rows above with
  | nil =>
    rw [arrangedBelow_nil, List.append_nil]
    exact ⟨above, rfl, h⟩
  | cons line ls ih =>
    rw [List.foldl_cons, step_gap h, arrangedBelow_cons, ← List.append_assoc]
    exact ih (h.arrange above line) (some line)

/-- The lines that the layout keeps are the normal form. -/
theorem keptLines_eq_arranged (ls : List (List Char)) : keptLines ls = arranged ls := by
  obtain ⟨below, hfold, hfull⟩ := foldl_step_gap ls endsFull_nil none
  have hstart : gap none ++ ([] : List (List Char)).reverse = [] := rfl
  rw [hstart, List.nil_append] at hfold
  rw [List.nil_append] at hfull
  rw [keptLines, hfold, hfull.dropWhile_gap, List.reverse_reverse]
  rfl

/-! ## What the normal form looks like -/

/-- Every blank line is empty, and a line comes directly below it that is neither blank nor closes a brace. -/
def IsTight (rows : List (List Char)) : Prop :=
  ∀ i row, rows[i]? = some row → Text.trim row = [] → row = [] ∧
    ∃ next, rows[i + 1]? = some next ∧ Text.trim next ≠ [] ∧ (Text.trim next).head? ≠ some '\x7d'

theorem isTight_nil : IsTight [] := by
  intro i row hrow
  simp at hrow

theorem IsTight.cons {line : List Char} (hfull : Text.trim line ≠ []) {rows : List (List Char)} (h : IsTight rows) :
    IsTight (line :: rows) := by
  intro i row hrow hblank
  cases i with
  | zero =>
    simp only [List.getElem?_cons_zero, Option.some.injEq] at hrow
    rw [hrow] at hfull
    exact absurd hblank hfull
  | succ i => exact h i row hrow hblank

theorem IsTight.gap_cons {line : List Char} (hfull : Text.trim line ≠ [])
    (hbrace : (Text.trim line).head? ≠ some '\x7d') {rows : List (List Char)} (h : IsTight rows)
    (above : Option (List Char)) : IsTight (gap above ++ line :: rows) := by
  have hline := h.cons hfull
  unfold gap
  split
  · intro i row hrow hblank
    cases i with
    | zero =>
      simp only [List.singleton_append, List.getElem?_cons_zero, Option.some.injEq] at hrow
      exact ⟨hrow.symm, line, rfl, hfull, hbrace⟩
    | succ i => exact hline i row hrow hblank
  · exact hline

theorem isTight_arrangedBelow (above : Option (List Char)) (ls : List (List Char)) :
    IsTight (arrangedBelow above ls) := by
  induction ls generalizing above with
  | nil => exact isTight_nil
  | cons line ls ih =>
    rw [arrangedBelow_cons]
    by_cases hblank : Text.trim line = []
    · rw [arrange_blank hblank]
      exact ih (some line)
    · by_cases hbrace : (Text.trim line).head? = some '\x7d'
      · rw [arrange_closing hbrace]
        exact (ih (some line)).cons hblank
      · rw [arrange_opening hblank hbrace, List.append_assoc]
        exact (ih (some line)).gap_cons hblank hbrace above

theorem fullLines_eq_filter (ls : List (List Char)) : fullLines ls = ls.filter (Text.trim · ≠ []) := by
  unfold fullLines
  congr 1
  funext line
  cases hblank : Text.allBlank line with
  | true => simp [Text.trim_eq_nil_iff.mpr hblank]
  | false =>
    have hfull : Text.trim line ≠ [] := fun h => by simp [Text.trim_eq_nil_iff.mp h] at hblank
    simp [hfull]

theorem fullLines_arranged (ls : List (List Char)) : fullLines (arranged ls) = fullLines ls := by
  rw [← keptLines_eq_arranged, fullLines_keptLines]

theorem arrange_eq_nil_iff (above : Option (List Char)) (line : List Char) :
    arrange above line = [] ↔ Text.trim line = [] := by
  unfold arrange
  split_ifs with hblank hgap
  · exact ⟨fun _ => hblank, fun _ => rfl⟩
  · simpa using hblank
  · simpa using hblank

theorem arrangedBelow_eq_nil_iff (above : Option (List Char)) (ls : List (List Char)) :
    arrangedBelow above ls = [] ↔ ∀ line ∈ ls, Text.trim line = [] := by
  induction ls generalizing above with
  | nil => simp
  | cons line ls ih =>
    rw [arrangedBelow_cons, List.append_eq_nil_iff, arrange_eq_nil_iff, ih (some line), List.forall_mem_cons]

theorem not_feed_of_mem_arranged {row s : List Char} (h : row ∈ arranged (Text.lines s)) : '\n' ∉ row := by
  rw [← keptLines_eq_arranged] at h
  intro hfeed
  rcases mem_keptLines h with rfl | ⟨hline, -⟩
  · cases hfeed
  · exact (Text.mem_of_mem_lines hline hfeed).2 rfl

theorem toList_tidy (s : String) : (tidy s).toList = Text.unlines (arranged (Text.lines s.toList)) := by
  rw [tidy, String.toList_ofList, keptLines_eq_arranged]

/-- The layout of a text is its normal form, row by row: its lines that are not blank, unchanged and in their order,
and one empty line above those of them that come directly below a blank line and close no brace. It is empty when all
lines are blank. -/
theorem tidy_is_normal_form (s : String) :
    (tidy s).toList = Text.unlines (arranged (Text.lines s.toList)) ∧
      (∀ row ∈ arranged (Text.lines s.toList), '\n' ∉ row) ∧
      (tidy s = "" ↔ ∀ line ∈ Text.lines s.toList, Text.trim line = []) ∧
      (arranged (Text.lines s.toList)).filter (Text.trim · ≠ [])
        = (Text.lines s.toList).filter (Text.trim · ≠ []) ∧
      IsTight (arranged (Text.lines s.toList)) := by
  have htext := toList_tidy s
  refine ⟨htext, fun row hrow => not_feed_of_mem_arranged hrow, ?_, ?_, isTight_arrangedBelow none _⟩
  · rw [← arrangedBelow_eq_nil_iff none, ← String.toList_eq_nil_iff, htext]
    unfold arranged
    cases arrangedBelow none (Text.lines s.toList) with
    | nil => simp [Text.unlines]
    | cons row rows => simp [Text.unlines]
  · rw [← fullLines_eq_filter, ← fullLines_eq_filter, fullLines_arranged]

example : arranged ["a \x7b".toList, [], " ".toList, "b".toList, "\t".toList, "\x7d".toList, []]
    = ["a \x7b".toList, [], "b".toList, "\x7d".toList] := by
  decide

end Layout

end ModuleScaffold
