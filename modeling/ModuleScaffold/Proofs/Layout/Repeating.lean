import ModuleScaffold.Proofs.Deleting
import ModuleScaffold.Proofs.Layout.NormalForm
import Mathlib.Logic.Function.Iterate

/-! # Laying out a file again

The normal form of a normal form is itself. But the lines of a file that was laid out are read with their endings, and
a carriage return at the end of a line is taken for a part of its ending. Main statement: every further layout takes one
such carriage return away from each line and changes nothing else. -/

namespace ModuleScaffold

namespace Text

/-- A line without the carriage return at its end, if there is one. -/
def withoutReturn (line : List Char) : List Char :=
  if line.getLast? = some '\r' then line.dropLast else line

theorem closeLine_reverse_eq (line : List Char) : closeLine line.reverse = withoutReturn line := by
  unfold withoutReturn
  split
  · next hlast =>
    obtain ⟨front, rfl⟩ := List.getLast?_eq_some_iff.mp hlast
    rw [List.reverse_append, List.dropLast_concat]
    exact List.reverse_reverse front
  · next hlast => exact closeLine_reverse line hlast

theorem lines_unlines_eq {rows : List (List Char)} (h : ∀ row ∈ rows, '\n' ∉ row) :
    lines (unlines rows) = rows.map withoutReturn := by
  induction rows with
  | nil => rfl
  | cons row rows ih =>
    rw [unlines, lines, linesFrom_append _ _ _ (h row List.mem_cons_self), List.append_nil, closeLine_reverse_eq,
      List.map_cons, ← ih fun r hr => h r (List.mem_cons_of_mem _ hr)]
    rfl

theorem unlines_inj {rows others : List (List Char)} (h : ∀ row ∈ rows, '\n' ∉ row)
    (ho : ∀ row ∈ others, '\n' ∉ row) : unlines rows = unlines others ↔ rows = others := by
  constructor
  · intro heq
    have hsplit := congrArg (splitAll '\n') heq
    rw [splitAll_unlines h, splitAll_unlines ho] at hsplit
    exact List.append_cancel_right hsplit
  · intro heq
    rw [heq]

theorem trim_withoutReturn (line : List Char) : trim (withoutReturn line) = trim line := by
  unfold withoutReturn
  split
  · next hlast =>
    obtain ⟨front, rfl⟩ := List.getLast?_eq_some_iff.mp hlast
    rw [List.dropLast_concat, trim_append front (List.forall_mem_singleton.mpr (by decide))]
  · rfl

theorem withoutReturn_eq_self_iff (line : List Char) : withoutReturn line = line ↔ line.getLast? ≠ some '\r' := by
  unfold withoutReturn
  split
  · next hlast =>
    obtain ⟨front, rfl⟩ := List.getLast?_eq_some_iff.mp hlast
    simp
  · next hlast => simp [hlast]

theorem mem_of_mem_withoutReturn {c : Char} {line : List Char} (h : c ∈ withoutReturn line) : c ∈ line := by
  unfold withoutReturn at h
  split at h
  · exact (List.dropLast_sublist line).mem h
  · exact h

/-! ## Without several carriage returns -/

theorem trim_iterate_withoutReturn (n : Nat) (line : List Char) : trim (withoutReturn^[n] line) = trim line := by
  induction n with
  | zero => rfl
  | succ n ih => rw [Function.iterate_succ_apply', trim_withoutReturn, ih]

theorem mem_of_mem_iterate_withoutReturn {c : Char} {n : Nat} {line : List Char} (h : c ∈ withoutReturn^[n] line) :
    c ∈ line := by
  induction n with
  | zero => exact h
  | succ n ih =>
    rw [Function.iterate_succ_apply'] at h
    exact ih (mem_of_mem_withoutReturn h)

end Text

namespace Layout

/-! ## The normal form of a normal form -/

/-- The normal form sees no more of a line than what is left of it without its outer blanks. -/
theorem arrangedBelow_map {f : List Char → List Char} (htrim : ∀ line, Text.trim (f line) = Text.trim line)
    (hempty : f [] = []) (above : Option (List Char)) (ls : List (List Char)) :
    arrangedBelow (above.map f) (ls.map f) = (arrangedBelow above ls).map f := by
  induction ls generalizing above with
  | nil => rfl
  | cons line ls ih =>
    have habove : (above.map f).map Text.trim = above.map Text.trim := by
      rw [Option.map_map]
      exact congrArg (above.map ·) (funext htrim)
    have hline : arrange (above.map f) (f line) = (arrange above line).map f := by
      unfold arrange
      rw [htrim, habove]
      split_ifs <;> simp [hempty]
    have hrest := ih (some line)
    rw [Option.map_some] at hrest
    rw [List.map_cons, arrangedBelow_cons, arrangedBelow_cons, hline, hrest, List.map_append]

theorem arrangedBelow_arrangedBelow {above : Option (List Char)} (h : above.map Text.trim ≠ some [])
    (before : Option (List Char)) (ls : List (List Char)) :
    arrangedBelow above (arrangedBelow before ls) = arrangedBelow before ls := by
  have hgap : gap above = [] := if_neg h
  induction ls generalizing above before with
  | nil => rfl
  | cons line ls ih =>
    rw [arrangedBelow_cons]
    by_cases hblank : Text.trim line = []
    · rw [arrange_blank hblank]
      exact ih h (some line) hgap
    · have hfull : (some line).map Text.trim ≠ some [] := by simpa using hblank
      have hrest := ih hfull (some line) (if_neg hfull)
      by_cases hbrace : (Text.trim line).head? = some '\x7d'
      · rw [arrange_closing hbrace, List.singleton_append, arrangedBelow_cons, arrange_closing hbrace, hrest]
        rfl
      · have hopening (above : Option (List Char)) : arrangedBelow above (line :: arrangedBelow (some line) ls)
            = gap above ++ line :: arrangedBelow (some line) ls := by
          rw [arrangedBelow_cons, arrange_opening hblank hbrace, hrest, List.append_assoc]
          rfl
        rw [arrange_opening hblank hbrace, List.append_assoc, List.singleton_append]
        by_cases hbefore : before.map Text.trim = some []
        · rw [gap, if_pos hbefore, List.singleton_append, arrangedBelow_cons, arrange_blank rfl, hopening]
          rfl
        · rw [gap, if_neg hbefore, List.nil_append, hopening, hgap]
          rfl

theorem arranged_arranged (ls : List (List Char)) : arranged (arranged ls) = arranged ls :=
  arrangedBelow_arrangedBelow (by simp) none ls

theorem arranged_map_withoutReturn (n : Nat) (ls : List (List Char)) :
    arranged ((arranged ls).map Text.withoutReturn^[n]) = (arranged ls).map Text.withoutReturn^[n] := by
  have hmap := arrangedBelow_map (Text.trim_iterate_withoutReturn n) (Function.iterate_fixed rfl n) none (arranged ls)
  calc arranged ((arranged ls).map Text.withoutReturn^[n])
      = (arranged (arranged ls)).map Text.withoutReturn^[n] := hmap
    _ = (arranged ls).map Text.withoutReturn^[n] := by rw [arranged_arranged]

theorem not_feed_of_mem_map_withoutReturn (n : Nat) {row s : List Char}
    (h : row ∈ (arranged (Text.lines s)).map Text.withoutReturn^[n]) : '\n' ∉ row := by
  intro hfeed
  obtain ⟨line, hline, rfl⟩ := List.mem_map.mp h
  exact not_feed_of_mem_arranged hline (Text.mem_of_mem_iterate_withoutReturn hfeed)

/-! ## Layouts one after the other -/

theorem tidy_unlines {rows : List (List Char)} (h : ∀ row ∈ rows, '\n' ∉ row) :
    tidy (String.ofList (Text.unlines rows))
      = String.ofList (Text.unlines ((arranged rows).map Text.withoutReturn)) := by
  have hmap := arrangedBelow_map Text.trim_withoutReturn rfl none rows
  rw [← String.toList_inj, toList_tidy, String.toList_ofList, String.toList_ofList, Text.lines_unlines_eq h]
  exact congrArg Text.unlines hmap

theorem tidy_eq (s : String) : tidy s = String.ofList (Text.unlines (arranged (Text.lines s.toList))) := by
  rw [← toList_tidy, String.ofList_toList]

theorem iterate_tidy (s : String) (n : Nat) :
    tidy^[n + 1] s
      = String.ofList (Text.unlines ((arranged (Text.lines s.toList)).map Text.withoutReturn^[n])) := by
  induction n with
  | zero =>
    rw [Function.iterate_zero, List.map_id]
    exact tidy_eq s
  | succ n ih =>
    rw [Function.iterate_succ_apply', ih, tidy_unlines fun _ hrow => not_feed_of_mem_map_withoutReturn n hrow,
      arranged_map_withoutReturn, List.map_map, ← Function.iterate_succ']

theorem map_withoutReturn_arranged_iff (ls : List (List Char)) :
    (arranged ls).map Text.withoutReturn = arranged ls
      ↔ ∀ line ∈ ls, Text.trim line ≠ [] → line.getLast? ≠ some '\r' := by
  have hself : (arranged ls).map Text.withoutReturn = arranged ls
      ↔ ∀ row ∈ arranged ls, row.getLast? ≠ some '\r' := by
    have hrows := List.map_inj_left (l := arranged ls) (f := Text.withoutReturn) (g := id)
    rw [List.map_id] at hrows
    simp only [id, Text.withoutReturn_eq_self_iff] at hrows
    exact hrows
  have hfull : ∀ line, (line ∈ arranged ls ∧ Text.trim line ≠ []) ↔ (line ∈ ls ∧ Text.trim line ≠ []) := by
    intro line
    have hlines := fullLines_arranged ls
    rw [fullLines_eq_filter, fullLines_eq_filter] at hlines
    have hmem : line ∈ (arranged ls).filter (Text.trim · ≠ []) ↔ line ∈ ls.filter (Text.trim · ≠ []) := by rw [hlines]
    simpa using hmem
  rw [hself]
  constructor
  · intro h line hline hblank
    exact h line ((hfull line).mpr ⟨hline, hblank⟩).1
  · intro h row hrow
    by_cases hblank : Text.trim row = []
    · -- A blank row is empty, so it has no last character.
      obtain ⟨i, hi⟩ := List.mem_iff_getElem?.mp hrow
      rw [(isTight_arrangedBelow none ls i row hi hblank).1]
      simp
    · exact h row ((hfull row).mp ⟨hrow, hblank⟩).1 hblank

/-- Each layout of a text after the first one takes a carriage return away from the end of each of its rows. So the
second one changes nothing exactly when no line of the text that is not blank ends with a carriage return, besides the
one that may belong to its ending. -/
theorem tidy_again_drops_returns (s : String) :
    (∀ n, (tidy^[n + 1] s).toList
        = Text.unlines ((arranged (Text.lines s.toList)).map Text.withoutReturn^[n])) ∧
      (tidy (tidy s) = tidy s
        ↔ ∀ line ∈ Text.lines s.toList, Text.trim line ≠ [] → line.getLast? ≠ some '\r') := by
  constructor
  · intro n
    rw [iterate_tidy, String.toList_ofList]
  · have hagain : tidy (tidy s)
        = String.ofList (Text.unlines ((arranged (Text.lines s.toList)).map Text.withoutReturn)) := iterate_tidy s 1
    have hrows : ∀ row ∈ (arranged (Text.lines s.toList)).map Text.withoutReturn, '\n' ∉ row :=
      fun _ hrow => not_feed_of_mem_map_withoutReturn 1 hrow
    rw [← map_withoutReturn_arranged_iff, hagain, tidy_eq, String.ofList_inj,
      Text.unlines_inj hrows fun _ hrow => not_feed_of_mem_arranged hrow]

/-- A second layout may change what the first one has left. -/
theorem tidy_again_may_change : ¬ ∀ s, tidy (tidy s) = tidy s := by
  intro h
  exact absurd (h "a\r") (by decide)

end Layout

end ModuleScaffold
