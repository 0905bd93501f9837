import ModuleScaffold.Proofs.Layout

/-! # Lines deleted from a file

Some lines of a file can be told from the line itself and the one above it. Main statement: deleting them after the
layout is laying out a text that was written without them, provided that each of them stands next to a line that the
layout keeps as it is. -/

namespace ModuleScaffold

/-! ## Deleting -/

namespace Text

/-- The lines without those that `drop` takes away, given the line above and the line itself. -/
def deleteFrom (drop : List Char → List Char → Bool) (above : List Char) : List (List Char) → List (List Char)
  | [] => []
  | l :: rest => if drop above l then deleteFrom drop l rest else l :: deleteFrom drop l rest

/-- A text without the lines that `drop` takes away; nothing else of it changes. -/
def deleteLines (drop : List Char → List Char → Bool) (s : String) : String :=
  String.ofList (List.intercalate ['\n'] (deleteFrom drop [] (splitAll '\n' s.toList)))

example : deleteLines (fun above line => above == ['a'] && line.head? == some '#') "a\n# b\n# c\n\nd\n"
    = "a\n# c\n\nd\n" := by
  decide

variable {drop : List Char → List Char → Bool}

theorem deleteFrom_append (above : List Char) (ls ks : List (List Char)) :
    deleteFrom drop above (ls ++ ks) = deleteFrom drop above ls ++ deleteFrom drop (ls.getLastD above) ks := by
  induction ls generalizing above with
  | nil => rfl
  | cons l ls ih =>
    rw [List.cons_append, deleteFrom, deleteFrom, ih, List.getLastD_cons]
    split <;> rfl

theorem splitAll_unlines {ls : List (List Char)} (h : ∀ l ∈ ls, '\n' ∉ l) :
    splitAll '\n' (unlines ls) = ls ++ [[]] := by
  induction ls with
  | nil => rfl
  | cons l ls ih =>
    rw [unlines, splitAll_append '\n' l _ (h l List.mem_cons_self), ih fun k hk => h k (List.mem_cons_of_mem _ hk)]
    rfl

theorem intercalate_eq_unlines (ls : List (List Char)) : List.intercalate ['\n'] (ls ++ [[]]) = unlines ls := by
  induction ls with
  | nil => rfl
  | cons l ls ih =>
    cases ls with
    | nil => simp [List.intercalate, unlines]
    | cons k ls =>
      rw [List.cons_append, List.cons_append, List.intercalate_cons_cons, ← List.cons_append, ih]
      simp [unlines]

end Text

namespace Layout

open Text (deleteFrom)

variable {drop : List Char → List Char → Bool}

/-! ## Layouts with and without the lines -/

/-- The lines that two layouts have kept so far, last line first: those of one of them are in the other as well, and
between them the other has lines that are to be deleted, each above or below a line that is not blank. -/
inductive Thinned (drop : List Char → List Char → Bool) : List (List Char) → List (List Char) → Prop
  | nil : Thinned drop [] []
  | both {l : List Char} {kept thin : List (List Char)} (hl : ∀ above, drop above l = false) :
    Thinned drop kept thin → Thinned drop (l :: kept) (l :: thin)
  | commented {l d : List Char} {kept thin : List (List Char)} (hne : l ≠ []) (hl : ∀ above, drop above l = false)
    (hd : ∀ above, drop above d = true) : Thinned drop kept thin → Thinned drop (l :: d :: kept) (l :: thin)
  | described {l d : List Char} {kept thin : List (List Char)} (hne : l ≠ []) (hl : ∀ above, drop above l = false)
    (hdne : d ≠ []) (hd : drop l d = true) : Thinned drop kept thin → Thinned drop (d :: l :: kept) (l :: thin)

namespace Thinned

variable {kept thin : List (List Char)}

theorem dropWhile_isEmpty (h : Thinned drop kept thin) :
    Thinned drop (kept.dropWhile (·.isEmpty)) (thin.dropWhile (·.isEmpty)) := by
  induction h with
  | nil => exact .nil
  | @both l kept thin hl h ih =>
    cases l with
    | nil => exact ih
    | cons c l => exact .both hl h
  | @commented l d kept thin hne hl hd h _ =>
    rw [List.dropWhile_cons_of_neg (by simpa using hne), List.dropWhile_cons_of_neg (by simpa using hne)]
    exact .commented hne hl hd h
  | @described l d kept thin hne hl hdne hd h _ =>
    rw [List.dropWhile_cons_of_neg (by simpa using hdne), List.dropWhile_cons_of_neg (by simpa using hne)]
    exact .described hne hl hdne hd h

/-- A line that both texts have leads to the same change of either layout. -/
theorem step (h : Thinned drop kept thin) {line : List Char} (hempty : ∀ above, drop above [] = false)
    (hline : ∀ above, drop above line = false) : Thinned drop (Layout.step kept line) (Layout.step thin line) := by
  unfold Layout.step
  split
  · -- An empty line is added on both sides or on neither, since the last lines are empty together.
    cases h with
    | nil => exact .both hempty .nil
    | @both l kept thin hl h =>
      cases l with
      | nil => exact .both hl h
      | cons c l => exact .both hempty (.both hl h)
    | @commented l d kept thin hne hl hd h =>
      obtain ⟨c, word, rfl⟩ := List.exists_cons_of_ne_nil hne
      exact .both hempty (.commented hne hl hd h)
    | @described l d kept thin hne hl hdne hd h =>
      obtain ⟨c, word, rfl⟩ := List.exists_cons_of_ne_nil hne
      obtain ⟨c', word', rfl⟩ := List.exists_cons_of_ne_nil hdne
      exact .both hempty (.described hne hl hdne hd h)
  · split
    · exact .both hline h.dropWhile_isEmpty
    · exact .both hline h

theorem deleteFrom_reverse (h : Thinned drop kept thin) (start : List Char) :
    deleteFrom drop start kept.reverse = thin.reverse := by
  induction h with
  | nil => rfl
  | @both l kept thin hl h ih =>
    rw [List.reverse_cons, List.reverse_cons, Text.deleteFrom_append, ih]
    simp [deleteFrom, hl]
  | @commented l d kept thin hne hl hd h ih =>
    rw [List.reverse_cons, List.reverse_cons, List.reverse_cons, List.append_assoc, Text.deleteFrom_append, ih]
    simp [deleteFrom, hl, hd]
  | @described l d kept thin hne hl hdne hd h ih =>
    rw [List.reverse_cons, List.reverse_cons, List.reverse_cons, List.append_assoc, Text.deleteFrom_append, ih]
    simp [deleteFrom, hl, hd]

end Thinned

/-! ## Texts with and without the lines -/

/-- Strings that lead to the same layout as others, but for lines that are to be deleted. -/
def Thins (drop : List Char → List Char → Bool) (ls ks : List String) : Prop :=
  ∀ kept thin, Thinned drop kept thin →
    Thinned drop ((Text.lines (Text.charsOf ls)).foldl step kept) ((Text.lines (Text.charsOf ks)).foldl step thin)

namespace Thins

variable {ls ks ls' ks' : List String}

theorem append (h : Thins drop ls ks) (h' : Thins drop ls' ks') : Thins drop (ls ++ ls') (ks ++ ks') := by
  intro kept thin hkept
  rw [Text.lines_charsOf_append, Text.lines_charsOf_append, List.foldl_append, List.foldl_append]
  exact h' _ _ (h _ _ hkept)

theorem flatMap {α : Type} {f g : α → List String} {as : List α} (h : ∀ a ∈ as, Thins drop (f a) (g a)) :
    Thins drop (as.flatMap f) (as.flatMap g) := by
  induction as with
  | nil => exact fun _ _ hkept => hkept
  | cons a as ih =>
    rw [List.flatMap_cons, List.flatMap_cons]
    exact (h a List.mem_cons_self).append (ih fun b hb => h b (List.mem_cons_of_mem _ hb))

theorem foldl_step {rows kept thin : List (List Char)} (hempty : ∀ above, drop above [] = false)
    (hrows : ∀ row ∈ rows, ∀ above, drop above row = false) (h : Thinned drop kept thin) :
    Thinned drop (rows.foldl step kept) (rows.foldl step thin) := by
  induction rows generalizing kept thin with
  | nil => exact h
  | cons row rows ih =>
    exact ih (fun r hr => hrows r (List.mem_cons_of_mem _ hr)) (h.step hempty (hrows row List.mem_cons_self))

theorem same (hempty : ∀ above, drop above [] = false)
    (hrows : ∀ row ∈ Text.lines (Text.charsOf ls), ∀ above, drop above row = false) : Thins drop ls ls :=
  fun _ _ h => foldl_step hempty hrows h

/-- A line to be deleted may stand above a line that begins with a word. -/
theorem commented {d l : String} {front rest : List Char} (hempty : ∀ above, drop above [] = false)
    (hdline : Text.IsLine d.toList) (hdopens : opens d.toList = true) (hd : ∀ above, drop above d.toList = true)
    (hl : l.toList = front ++ rest) (hline : Text.IsLine front) (hopens : opens front = true)
    (hrows : ∀ row ∈ Text.lines (Text.charsOf [l]), ∀ above, drop above row = false) :
    Thins drop ([d] ++ [l]) [l] := by
  intro kept thin h
  obtain ⟨row, rows, hfirst⟩ := Text.lines_first hline (ne_nil_of_opens hopens) (rest ++ ['\n'])
  have hl' : Text.lines (Text.charsOf [l]) = (front ++ row) :: rows := by
    rw [Text.charsOf_cons, Text.charsOf_nil, hl, List.append_assoc, hfirst]
  have hrow := opens_append hopens row
  rw [hl'] at hrows
  rw [Text.lines_charsOf_append, Text.lines_charsOf_singleton hdline, hl', List.singleton_append, List.foldl_cons,
    List.foldl_cons, List.foldl_cons, step_of_opens hdopens, step_of_opens hrow, step_of_opens hrow]
  exact foldl_step hempty (fun r hr => hrows r (List.mem_cons_of_mem _ hr))
    (.commented (ne_nil_of_opens hrow) (hrows _ List.mem_cons_self) hd h)

/-- A line to be deleted may stand below a line that begins with a word. -/
theorem described {l d : String} (hline : Text.IsLine l.toList) (hopens : opens l.toList = true)
    (hl : ∀ above, drop above l.toList = false) (hdline : Text.IsLine d.toList) (hdopens : opens d.toList = true)
    (hd : drop l.toList d.toList = true) : Thins drop [l, d] [l] := by
  intro kept thin h
  have hlines := Text.lines_charsOf_append [l] [d]
  rw [Text.lines_charsOf_singleton hline, Text.lines_charsOf_singleton hdline] at hlines
  rw [Text.lines_charsOf_singleton hline, ← List.singleton_append, hlines, List.singleton_append, List.foldl_cons,
    List.foldl_cons, List.foldl_nil, List.foldl_cons, List.foldl_nil, step_of_opens hdopens, step_of_opens hopens,
    step_of_opens hopens]
  exact .described (ne_nil_of_opens hopens) hl (ne_nil_of_opens hdopens) hd h

end Thins

theorem not_mem_keptLines {l : List Char} {s : List Char} (h : l ∈ keptLines (Text.lines s)) : '\n' ∉ l := by
  intro hc
  rcases mem_keptLines h with rfl | ⟨hl, -⟩
  · cases hc
  · exact (Text.mem_of_mem_lines hl hc).2 rfl

/-- Deleting the lines from the layout of the one text is the layout of the other. -/
theorem deleteLines_tidy {ls ks : List String} (hempty : ∀ above, drop above [] = false) (h : Thins drop ls ks) :
    Text.deleteLines drop (tidy (Text.ofLines ls)) = tidy (Text.ofLines ks) := by
  have hthin : deleteFrom drop [] (keptLines (Text.lines (Text.charsOf ls)))
      = keptLines (Text.lines (Text.charsOf ks)) :=
    (h [] [] .nil).dropWhile_isEmpty.deleteFrom_reverse []
  rw [Text.deleteLines, tidy, tidy, String.toList_ofList, Text.toList_ofLines, Text.toList_ofLines,
    Text.splitAll_unlines fun l hl => not_mem_keptLines hl, Text.deleteFrom_append, hthin]
  have hlast : ∀ above, deleteFrom drop above [[]] = [[]] := fun above => by simp [deleteFrom, hempty]
  rw [hlast, Text.intercalate_eq_unlines]

end Layout

end ModuleScaffold
