import ModuleScaffold.Hcl.Syntax
import ModuleScaffold.Proofs.Reading.Part

/-! # What stands between tokens

Blanks, line endings and comments are dropped with a budget as long as the text. Main statement: the budget is
enough, so what is dropped at the front of a text leaves no trace. Words are cut off as a whole when no further
character of an identifier follows. -/

namespace ModuleScaffold.Hcl.Syntax

/-! ## Comments are shorter than the text -/

theorem length_commentEnd? {s rest : List Char} (h : commentEnd? s = some rest) : rest.length < s.length := by
  induction s using commentEnd?.induct with
  | case1 => simp [commentEnd?] at h
  | case2 s =>
    rw [commentEnd?] at h
    cases h
    simp only [List.length_cons]
    omega
  | case3 c s hne ih =>
    rw [commentEnd?] at h
    · have := ih h
      simp only [List.length_cons]
      omega
    · exact hne

theorem length_lineEnd? {s rest : List Char} (h : lineEnd? s = some rest) : rest.length ≤ s.length := by
  induction s using lineEnd?.induct with
  | case1 | case2 s | case3 s =>
    cases h
    exact Nat.le_refl _
  | case4 => simp_all [lineEnd?]
  | case5 c s _ _ hc ih =>
    rw [lineEnd?, if_neg hc] at h
    · have := ih h
      simp only [List.length_cons]
      omega
    all_goals assumption

/-- Goes behind a comment of either kind. -/
def comment? : List Char → Option (List Char)
  | '/' :: '*' :: rest => commentEnd? rest
  | other => lineComment? other

theorem length_comment? {s rest : List Char} (h : comment? s = some rest) : rest.length < s.length := by
  unfold comment? lineComment? at h
  split at h
  · have := length_commentEnd? h
    simp only [List.length_cons]
    omega
  · split at h
    · have := length_lineEnd? h
      simp only [List.length_cons]
      omega
    · have := length_lineEnd? h
      simp only [List.length_cons]
      omega
    · cases h

theorem breaksIn_cons (s : List Char) (x : Char) (fuel : List Char) :
    breaksIn s (x :: fuel) = match comment? (s.dropWhile isBreak) with
      | some rest => breaksIn rest fuel
      | none => s.dropWhile isBreak := by
  rw [breaksIn]
  generalize s.dropWhile isBreak = start
  split
  · next rest =>
    have hcomment : comment? ('/' :: '*' :: rest) = commentEnd? rest := rfl
    cases hend : commentEnd? rest <;> simp only [hcomment, hend]
  · next hne =>
    have hcomment : comment? start = lineComment? start := by
      unfold comment?
      split
      · next h => exact absurd rfl (hne _)
      · rfl
    cases hend : lineComment? start <;> simp only [hcomment, hend]

theorem breaksIn_eq {s fuel more : List Char} (hf : s.length ≤ fuel.length) (hm : s.length ≤ more.length) :
    breaksIn s fuel = breaksIn s more := by
  -- A comment is shorter than the text it begins, so what is left of the budget covers what is left of the text.
  induction fuel generalizing s more with
  | nil =>
    obtain rfl : s = [] := List.eq_nil_of_length_eq_zero (Nat.le_zero.mp hf)
    cases more with
    | nil => rfl
    | cons y more => rfl
  | cons x fuel ih =>
    cases more with
    | nil =>
      obtain rfl : s = [] := List.eq_nil_of_length_eq_zero (Nat.le_zero.mp hm)
      rfl
    | cons y more =>
      have hdrop := (List.dropWhile_sublist isBreak (l := s)).length_le
      rw [breaksIn_cons, breaksIn_cons]
      cases hc : comment? (s.dropWhile isBreak) with
      | none => rfl
      | some rest =>
        have hrest := length_comment? hc
        simp only [List.length_cons] at hf hm
        exact ih (by omega) (by omega)

/-! ## Breaks -/

theorem breaks_eq (s : List Char) :
    breaks s = match comment? (s.dropWhile isBreak) with
      | some rest => breaks rest
      | none => s.dropWhile isBreak := by
  cases s with
  | nil => rfl
  | cons c s =>
    have hdrop := (List.dropWhile_sublist isBreak (l := c :: s)).length_le
    rw [breaks, breaksIn_cons]
    cases hc : comment? ((c :: s).dropWhile isBreak) with
    | none => rfl
    | some rest =>
      have hrest := length_comment? hc
      simp only [List.length_cons] at hdrop
      exact breaksIn_eq (by omega) (Nat.le_refl _)

theorem breaks_cons {c : Char} (hc : isBreak c = true) (s : List Char) : breaks (c :: s) = breaks s := by
  rw [breaks_eq, breaks_eq s, List.dropWhile_cons, if_pos hc]

@[simp] theorem breaks_feed (s : List Char) : breaks ('\n' :: s) = breaks s := breaks_cons rfl s

@[simp] theorem breaks_blank (s : List Char) : breaks (' ' :: s) = breaks s := breaks_cons rfl s

theorem breaks_pad {pad : List Char} (hp : Reading.IsPad pad) (s : List Char) : breaks (pad ++ s) = breaks s := by
  induction pad with
  | nil => rfl
  | cons c pad ih =>
    have hc : c = ' ' := hp c List.mem_cons_self
    subst hc
    rw [List.cons_append, breaks_blank, ih fun d hd => hp d (List.mem_cons_of_mem _ hd)]

theorem lineEnd?_append {s : List Char} (hf : '\n' ∉ s) (hr : '\r' ∉ s) (rest : List Char) :
    lineEnd? (s ++ '\n' :: rest) = some ('\n' :: rest) := by
  induction s with
  | nil => rfl
  | cons c s ih =>
    simp only [List.mem_cons, not_or] at hf hr
    rw [List.cons_append, lineEnd?, if_neg (Ne.symm hr.1), ih hf.2 hr.2]
    · exact fun h => hf.1 h.symm
    · exact fun t h => absurd h.symm hr.1

/-- A comment leaves no trace. -/
theorem breaks_comment {s : List Char} (hf : '\n' ∉ s) (hr : '\r' ∉ s) (rest : List Char) :
    breaks ('/' :: '/' :: (s ++ '\n' :: rest)) = breaks rest := by
  have hcomment : comment? (('/' :: '/' :: (s ++ '\n' :: rest)).dropWhile isBreak) = some ('\n' :: rest) :=
    lineEnd?_append hf hr rest
  rw [breaks_eq, hcomment]
  exact breaks_feed rest

/-! ## Characters that no gap begins with -/

/-- A character of a class is none of those outside it. -/
theorem ne_of_class {p : Char → Bool} {c : Char} {ds : List Char} (hc : p c = true)
    (hds : (ds.all fun d => !p d) = true) : ∀ d ∈ ds, c ≠ d := by
  rintro d hd rfl
  have hout := List.all_eq_true.mp hds c hd
  rw [hc] at hout
  cases hout

def isSolid (c : Char) : Bool := !isBreak c && c != '/' && c != '#'

theorem isSolid_of_isIdentifierChar {c : Char} (h : Text.isIdentifierChar c = true) : isSolid c = true := by
  have hne : ∀ d ∈ [' ', '\t', '\r', '\n', '/', '#'], c ≠ d := ne_of_class h (by decide)
  simp only [List.mem_cons, List.not_mem_nil, or_false, forall_eq_or_imp, forall_eq] at hne
  simp [isSolid, isBreak, isGap, hne]

theorem breaks_solid {c : Char} (hc : isSolid c = true) (s : List Char) : breaks (c :: s) = c :: s := by
  simp only [isSolid, Bool.and_eq_true, Bool.not_eq_true', bne_iff_ne, ne_eq] at hc
  obtain ⟨⟨hbreak, hslash⟩, hhash⟩ := hc
  have hcomment : comment? (c :: s) = none := by
    unfold comment? lineComment?
    split
    · next h => cases h; exact absurd rfl hslash
    · split
      · next h => cases h; exact absurd rfl hhash
      · next h => cases h; exact absurd rfl hslash
      · rfl
  rw [breaks_eq, List.dropWhile_cons, if_neg (by simp [hbreak]), hcomment]

theorem gapIn_eq {c : Char} (hc : c ≠ '/') {s rest : List Char} (h : s.dropWhile isGap = c :: rest) (fuel : List Char) :
    gapIn s fuel = c :: rest := by
  cases fuel with
  | nil => exact h
  | cons x fuel =>
    rw [gapIn, h]
    split
    · next h => cases h; exact absurd rfl hc
    · rfl

@[simp] theorem gap_blank (c : Char) (hc : c ≠ '/') (hg : isGap c = false) (s : List Char) :
    gap (' ' :: c :: s) = c :: s :=
  gapIn_eq hc (by rw [List.dropWhile_cons, if_pos (by decide), List.dropWhile_cons, if_neg (by simp [hg])]) _

theorem gap_cons {c : Char} (hc : c ≠ '/') (hg : isGap c = false) (s : List Char) : gap (c :: s) = c :: s :=
  gapIn_eq hc (by rw [List.dropWhile_cons, if_neg (by simp [hg])]) _

/-! ## Words -/

/-- No word goes on into this text. -/
def EndsWord (rest : List Char) : Prop := ∀ c ∈ rest.head?, Text.isIdentifierPart c = false

theorem EndsWord.cons {c : Char} (hc : Text.isIdentifierPart c = false) (s : List Char) : EndsWord (c :: s) := by
  rintro d hd
  cases hd
  exact hc

theorem EndsWord.takeWhile {rest : List Char} (h : EndsWord rest) : rest.takeWhile Text.isIdentifierPart = [] := by
  cases rest with
  | nil => rfl
  | cons c rest => rw [List.takeWhile_cons, h c rfl]; rfl

theorem EndsWord.dropWhile {rest : List Char} (h : EndsWord rest) :
    rest.dropWhile Text.isIdentifierPart = rest := by
  cases rest with
  | nil => rfl
  | cons c rest => rw [List.dropWhile_cons, h c rfl]; rfl

section

variable {name word rest : List Char}

theorem isIdentifier_cons {name : List Char} (hn : Text.isIdentifier name = true) :
    ∃ c more, name = c :: more ∧ Text.isIdentifierStart c = true ∧ ∀ d ∈ more, Text.isIdentifierPart d = true := by
  cases name with
  | nil => cases hn
  | cons c more =>
    rw [Text.isIdentifier, Bool.and_eq_true, List.all_eq_true] at hn
    exact ⟨c, more, rfl, hn⟩

theorem identifier?_append (hn : Text.isIdentifier name = true) (hr : EndsWord rest) :
    identifier? (name ++ rest) = some rest := by
  obtain ⟨c, more, rfl, hc, hmore⟩ := isIdentifier_cons hn
  rw [List.cons_append, identifier?, if_pos hc, List.dropWhile_append_of_pos hmore, hr.dropWhile]

theorem identifierText_append (hn : Text.isIdentifier name = true) (hr : EndsWord rest) :
    identifierText (name ++ rest) = name := by
  obtain ⟨c, more, rfl, hc, hmore⟩ := isIdentifier_cons hn
  rw [List.cons_append, identifierText, List.takeWhile_append_of_pos hmore, hr.takeWhile, List.append_nil]

theorem keyword?_self (word : List Char) (hr : EndsWord rest) : keyword? word (word ++ rest) = some rest := by
  rw [keyword?, Text.after?_eq_some_iff.mpr rfl]
  cases rest with
  | nil => rfl
  | cons c rest =>
    have hc := hr c rfl
    simp [hc]

/-- A keyword is not found in another word. -/
theorem keyword?_append (hn : Text.isIdentifier name = true) (hw : Text.isIdentifier word = true) (hne : name ≠ word)
    (hr : EndsWord rest) : keyword? word (name ++ rest) = none := by
  have hsame : ∀ tail, EndsWord tail → Text.after? word (name ++ rest) ≠ some tail := by
    intro tail ht h
    have htext := Text.after?_eq_some_iff.mp h
    apply hne
    rw [← identifierText_append hn hr, htext, identifierText_append hw ht]
  unfold keyword?
  split
  · next h => exact absurd h (hsame [] (fun _ hc => by cases hc))
  · next c tail h =>
    cases hc : Text.isIdentifierPart c with
    | true => rfl
    | false => exact absurd h (hsame (c :: tail) (.cons hc tail))
  · rfl

theorem keyword?_cons {w c : Char} (hc : w ≠ c) (word s : List Char) : keyword? (w :: word) (c :: s) = none := by
  rw [keyword?, Text.after?, if_neg hc]

end

end ModuleScaffold.Hcl.Syntax
