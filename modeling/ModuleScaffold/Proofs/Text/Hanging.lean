import ModuleScaffold.Proofs.Text.Pieces

/-! # Texts that hang

The first line of a text stands where the text begins, and all others hang below it. Blanks put before the others change
no line but for the blanks at its beginning. -/

namespace ModuleScaffold.Text

/-- A text with this many blanks more after every line feed. -/
def hang (blanks : Nat) (s : List Char) : List Char :=
  s.flatMap fun c => if c = '\n' then '\n' :: List.replicate blanks ' ' else [c]

/-- The lines of a text without the blanks that they begin with. -/
def flushLines (s : List Char) : List (List Char) := (splitAll '\n' s).map fun l => l.dropWhile (· = ' ')

variable {s t : List Char}

@[simp] theorem hang_append (blanks : Nat) (s t : List Char) : hang blanks (s ++ t) = hang blanks s ++ hang blanks t :=
  List.flatMap_append

@[simp] theorem hang_feed (blanks : Nat) (s : List Char) :
    hang blanks ('\n' :: s) = '\n' :: (List.replicate blanks ' ' ++ hang blanks s) := by
  simp [hang]

theorem hang_of_not_mem (blanks : Nat) (h : '\n' ∉ s) : hang blanks s = s := by
  induction s with
  | nil => rfl
  | cons c s ih =>
    simp only [List.mem_cons, not_or] at h
    have hrest := ih h.2
    unfold hang at hrest ⊢
    rw [List.flatMap_cons, if_neg (Ne.symm h.1), hrest, List.singleton_append]

/-! ## Lines -/

/-- What is put before a text is put before its first line. -/
theorem splitAll_before {front first : List Char} {rest : List (List Char)} (hf : '\n' ∉ front)
    (hs : splitAll '\n' s = first :: rest) : splitAll '\n' (front ++ s) = (front ++ first) :: rest := by
  induction front with
  | nil => exact hs
  | cons c front ih =>
    simp only [List.mem_cons, not_or] at hf
    rw [List.cons_append, splitAll, if_neg (Ne.symm hf.1), ih hf.2]
    rfl

/-- All lines but the first one hang. -/
theorem exists_splitAll_hang (blanks : Nat) (s : List Char) :
    ∃ first rest, splitAll '\n' s = first :: rest ∧
      splitAll '\n' (hang blanks s) = first :: rest.map (List.replicate blanks ' ' ++ ·) := by
  induction s with
  | nil => exact ⟨[], [], rfl, rfl⟩
  | cons c s ih =>
    obtain ⟨first, rest, hs, hhang⟩ := ih
    by_cases hc : c = '\n'
    · subst hc
      have hpad : '\n' ∉ List.replicate blanks ' ' := by simp
      refine ⟨[], first :: rest, ?_, ?_⟩
      · rw [splitAll, if_pos rfl, hs]
      · rw [hang_feed, splitAll, if_pos rfl, splitAll_before hpad hhang]
        rfl
    · have hone : '\n' ∉ [c] := by simpa using Ne.symm hc
      refine ⟨c :: first, rest, splitAll_before hone hs, ?_⟩
      rw [← List.singleton_append, hang_append, hang_of_not_mem blanks hone]
      exact splitAll_before hone hhang

theorem flushLines_hang (blanks : Nat) (s : List Char) : flushLines (hang blanks s) = flushLines s := by
  obtain ⟨first, rest, hs, hhang⟩ := exists_splitAll_hang blanks s
  have hpad : ∀ c ∈ List.replicate blanks ' ', decide (c = ' ') = true := by simp
  unfold flushLines
  rw [hs, hhang, List.map_cons, List.map_cons, List.map_map]
  congr 2
  funext l
  exact List.dropWhile_append_of_pos hpad

/-! ## Full lines -/

/-- No line of a text is blank. -/
def IsFull (s : List Char) : Prop := ∀ l ∈ splitAll '\n' s, allBlank l = false

theorem IsFull.word (hs : '\n' ∉ s) (h : allBlank s = false) : IsFull s := by
  unfold IsFull
  rw [splitAll_of_not_mem _ _ hs, List.forall_mem_singleton]
  exact h

theorem IsFull.before {front : List Char} (hf : '\n' ∉ front) (h : IsFull s) : IsFull (front ++ s) := by
  obtain ⟨first, rest, hs, -⟩ := exists_splitAll_hang 0 s
  unfold IsFull allBlank at h ⊢
  rw [hs, List.forall_mem_cons] at h
  rw [splitAll_before hf hs, List.forall_mem_cons, List.all_append, h.1, Bool.and_false]
  exact ⟨rfl, h.2⟩

theorem IsFull.after {back : List Char} (h : IsFull s) (hb : '\n' ∉ back) : IsFull (s ++ back) := by
  obtain ⟨init, last, hs, hback⟩ := exists_splitAll_append s hb
  unfold IsFull allBlank at h ⊢
  rw [hs, List.forall_mem_append, List.forall_mem_singleton] at h
  rw [hback, List.forall_mem_append, List.forall_mem_singleton, List.all_append, h.2]
  exact ⟨h.1, rfl⟩

theorem IsFull.feed (hs : IsFull s) (ht : IsFull t) : IsFull (s ++ '\n' :: t) := by
  unfold IsFull at hs ht ⊢
  rw [splitAll_join, List.forall_mem_append]
  exact ⟨hs, ht⟩

end ModuleScaffold.Text
