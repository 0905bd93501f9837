import ModuleScaffold.Hcl.Quoted
import ModuleScaffold.Proofs.Syntax.Literal

/-! # Quoted texts that are literals

What is written between quotes is escaped character by character, after the markers of templates have been doubled.
Main statement: a text is a literal then if no mark stands directly before a marker of the other kind. There the mark
is read together with the one behind it, and the marker may be left as it is. -/

namespace ModuleScaffold.Hcl.Quoted

open Syntax

/-- Whether no mark stands directly before a marker of the other kind. -/
def isUncrossed : List Char → Bool
  | [] => true
  | '$' :: '%' :: '\x7b' :: _ => false
  | '%' :: '$' :: '\x7b' :: _ => false
  | _ :: rest => isUncrossed rest

/-- Whether a character begins a marker if a brace follows it. -/
def isMark (c : Char) : Bool := c = '$' || c = '%'

theorem isUncrossed_cons (c : Char) (s : List Char) : isUncrossed (c :: s) = true ↔
    (∀ d more, s = d :: '\x7b' :: more → isMark c = true → isMark d = true → c = d) ∧ isUncrossed s = true := by
  rw [isUncrossed.eq_def]
  split
  · next h => cases h
  · next h => cases h; simp [isMark]
  · next h => cases h; simp [isMark]
  · next hdollar hpercent h =>
    cases h
    refine ⟨fun hs => ⟨?_, hs⟩, fun hs => hs.2⟩
    rintro d more rfl hc hd
    simp only [isMark, Bool.or_eq_true, decide_eq_true_eq] at hc hd
    rcases hc with rfl | rfl <;> rcases hd with rfl | rfl
    · rfl
    · exact absurd rfl (hdollar _ rfl)
    · exact absurd rfl (hpercent _ rfl)
    · rfl

theorem isUncrossed_tail {c : Char} {s : List Char} (h : isUncrossed (c :: s) = true) : isUncrossed s = true :=
  ((isUncrossed_cons c s).mp h).2

theorem templateAt_cons (c : Char) (s : List Char) :
    templateAt (c :: s) = true ↔ isMark c = true ∧ s.head? = some '\x7b' := by
  unfold templateAt isMark
  split
  · next h => cases h; simp
  · next h => cases h; simp
  · next hdollar hpercent =>
    simp only [Bool.false_eq_true, false_iff, Bool.or_eq_true, decide_eq_true_eq, not_and]
    intro hc hs
    obtain ⟨rest, rfl⟩ := List.head?_eq_some_iff.mp hs
    rcases hc with rfl | rfl
    · exact hdollar _ rfl
    · exact hpercent _ rfl

theorem templateAt_of_head?_ne {c : Char} {s : List Char} (h : s.head? ≠ some '\x7b') : templateAt (c :: s) = false :=
  Bool.eq_false_iff.mpr fun ht => h ((templateAt_cons c s).mp ht).2

theorem templateAt_of_not_isMark {c : Char} (h : isMark c = false) (s : List Char) : templateAt (c :: s) = false :=
  Bool.eq_false_iff.mpr fun ht => Bool.eq_false_iff.mp h ((templateAt_cons c s).mp ht).1

/-! ## Characters between quotes -/

/-- The rest of a string that begins here is read up to its end. -/
def Ends (s : List Char) : Prop := ∀ fuel : List Char, s.length ≤ fuel.length → plainStringIn? s fuel = some []

theorem Ends.quote : Ends ['"'] := by
  intro fuel hf
  cases fuel with
  | nil => cases hf
  | cons x fuel => rfl

theorem Ends.isLiteral {s : List Char} (h : Ends s) : IsLiteral ('"' :: s) := ⟨s, rfl, h s (Nat.le_refl _)⟩

/-- A character that is neither escaped nor part of a marker is read alone. -/
theorem plainStringIn?_cons {c : Char} {s : List Char} (hq : c ≠ '"') (hb : c ≠ '\\')
    (hc : templateAt (c :: s) = false) (hs : templateAt s = false) (x : Char) (fuel : List Char) :
    plainStringIn? (c :: s) (x :: fuel) = plainStringIn? s fuel := by
  refine plainStringIn?.eq_9 x fuel c s hq ?_ ?_ ?_ ?_ hb
  · rintro rest rfl rfl
    cases hs
  · rintro rest rfl rfl
    cases hs
  · rintro rest rfl rfl
    cases hc
  · rintro rest rfl rfl
    cases hc

theorem Ends.cons {c : Char} {s : List Char} (h : Ends s) (hq : c ≠ '"') (hb : c ≠ '\\')
    (hc : templateAt (c :: s) = false) (hs : templateAt s = false) : Ends (c :: s) := by
  intro fuel hf
  cases fuel with
  | nil => cases hf
  | cons x fuel =>
    rw [plainStringIn?_cons hq hb hc hs]
    exact h fuel (Nat.le_of_succ_le_succ hf)

theorem Ends.of_brace {s : List Char} (h : Ends ('\x7b' :: s)) : Ends s := by
  intro fuel hf
  have hbrace := plainStringIn?.eq_9 'x' fuel '\x7b' s
  rw [← hbrace (by decide) (by simp) (by simp) (by simp) (by simp) (by decide)]
  exact h ('x' :: fuel) (Nat.succ_le_succ hf)

/-- A doubled mark before a brace stands for the brace and one mark. -/
theorem Ends.marker {c : Char} {s : List Char} (h : Ends s) (hc : isMark c = true) : Ends (c :: c :: '\x7b' :: s) := by
  intro fuel hf
  simp only [isMark, Bool.or_eq_true, decide_eq_true_eq] at hc
  cases fuel with
  | nil => cases hf
  | cons x fuel =>
    have hrest := h fuel (by simp only [List.length_cons] at hf; omega)
    rcases hc with rfl | rfl
    · rw [plainStringIn?]
      exact hrest
    · rw [plainStringIn?]
      exact hrest

theorem Ends.escape {s more rest : List Char} (h : Ends rest) (he : escape? more = some [])
    (hs : s = '\\' :: (more ++ rest)) : Ends s := by
  subst hs
  intro fuel hf
  cases fuel with
  | nil => cases hf
  | cons x fuel =>
    have hbehind := (escape?_append he rest).1
    rw [plainStringIn?, hbehind]
    exact h fuel (by simp only [List.length_cons, List.length_append] at hf; omega)

theorem escape?_control {n : Nat} (h : n < 32) : escape? ['u', '0', '0', hexDigit (n / 16), hexDigit (n % 16)] = some [] := by
  have hall : ∀ n < 32, escape? ['u', '0', '0', hexDigit (n / 16), hexDigit (n % 16)] = some [] := by decide
  exact hall n h

/-- A character is read as it is written, where it begins no marker. -/
theorem Ends.char {s : List Char} (h : Ends s) (c : Char) (hc : templateAt (c :: s) = false)
    (hs : templateAt s = false) : Ends (escapeChar c ++ s) := by
  unfold escapeChar
  split
  · exact h.escape (by decide : escape? ['"'] = some []) rfl
  split
  · exact h.escape (by decide : escape? ['\\'] = some []) rfl
  split
  · exact h.escape (by decide : escape? ['b'] = some []) rfl
  split
  · exact h.escape (by decide : escape? ['t'] = some []) rfl
  split
  · exact h.escape (by decide : escape? ['n'] = some []) rfl
  split
  · exact h.escape (by decide : escape? ['f'] = some []) rfl
  split
  · exact h.escape (by decide : escape? ['r'] = some []) rfl
  split
  · next hlt => exact h.escape (escape?_control (show c.toNat < 32 from hlt)) rfl
  · next hquote hbackslash _ _ _ _ _ _ => exact h.cons hquote hbackslash hc hs

/-! ## Texts between quotes -/

/-- A text as it stands between quotes, with the closing one. -/
def written (s : List Char) : List Char := s.flatMap escapeChar ++ ['"']

theorem written_cons (c : Char) (s : List Char) : written (c :: s) = escapeChar c ++ written s := by simp [written]

theorem head?_written (s : List Char) : (written s).head? = some '\x7b' ↔ s.head? = some '\x7b' := by
  cases s with
  | nil => decide
  | cons c s =>
    rw [written_cons]
    unfold escapeChar
    repeat' split
    any_goals simp_all
    rintro rfl
    contradiction

/-- Nothing begins a marker that does not begin one in the text. -/
theorem templateAt_written (s : List Char) : templateAt (written s) = templateAt s := by
  cases s with
  | nil => rfl
  | cons c s =>
    have hchar : templateAt (escapeChar c ++ written s) = templateAt (c :: written s) := by
      unfold escapeChar
      repeat' split
      any_goals (subst_vars; rfl)
      next hlt =>
        refine (Bool.eq_false_iff.mpr fun hc => ?_).symm
        have hmark := ((templateAt_cons _ _).mp hc).1
        simp only [isMark, Bool.or_eq_true, decide_eq_true_eq] at hmark
        rcases hmark with rfl | rfl <;> exact absurd hlt (by decide)
    rw [written_cons, hchar, Bool.eq_iff_iff, templateAt_cons, templateAt_cons, head?_written]

theorem ends_cons {c : Char} {s : List Char} (h : Ends (written s)) (hc : templateAt (c :: s) = false)
    (hs : templateAt s = false) : Ends (written (c :: s)) := by
  rw [← templateAt_written] at hs
  rw [written_cons]
  refine h.char c ?_ hs
  rwa [Bool.eq_false_iff, ne_eq, templateAt_cons, head?_written, ← templateAt_cons, ← ne_eq, ← Bool.eq_false_iff]

/-! ## Markers -/

theorem head?_doubleMarkers (s : List Char) : (doubleMarkers s).head? = s.head? := by
  unfold doubleMarkers
  split
  · rfl
  · rfl
  · repeat' split
    all_goals rfl

theorem ne_brace_of_isMark {c : Char} (h : isMark c = true) : c ≠ '\x7b' := by
  rintro rfl
  cases h

/-- A text with doubled marks does not begin with a marker. -/
theorem templateAt_doubleMarkers (s : List Char) : templateAt (doubleMarkers s) = false := by
  unfold doubleMarkers
  split
  · rfl
  · exact templateAt_of_head?_ne (by simp)
  · next c d rest =>
    split
    · next hc =>
      split
      · exact templateAt_of_head?_ne (by simpa using ne_brace_of_isMark hc)
      · next hd => exact templateAt_of_head?_ne (by simpa using hd)
    · next hc => exact templateAt_of_not_isMark (Bool.eq_false_iff.mpr hc) _

theorem ends_marker {c : Char} {s : List Char} (hc : isMark c = true) (h : Ends (written s)) :
    Ends (written (c :: c :: '\x7b' :: s)) := by
  have hself : escapeChar c = [c] := by
    simp only [isMark, Bool.or_eq_true, decide_eq_true_eq] at hc
    rcases hc with rfl | rfl <;> rfl
  rw [written_cons, written_cons, written_cons, hself]
  exact h.marker hc

theorem ends_doubleMarkers {s : List Char} (h : isUncrossed s = true) : Ends (written (doubleMarkers s)) := by
  induction s using doubleMarkers.induct with
  | case1 => exact .quote
  | case2 c => exact ends_cons .quote (templateAt_of_head?_ne (by simp)) rfl
  | case3 c rest hc ih =>
    rw [doubleMarkers, if_pos hc, if_pos rfl]
    exact ends_marker hc (ih (isUncrossed_tail (isUncrossed_tail h)))
  | case4 c d rest hc hd ih =>
    have hrest := ih (isUncrossed_tail (isUncrossed_tail h))
    have hfirst := templateAt_doubleMarkers rest
    rw [doubleMarkers, if_pos hc, if_neg hd]
    cases hopen : templateAt (d :: doubleMarkers rest) with
    | false => exact ends_cons (ends_cons hrest hopen hfirst) (templateAt_of_head?_ne (by simpa using hd)) hopen
    | true =>
      -- The second character is a mark before a brace. It is the first one again, so that they are read together.
      obtain ⟨hmark, hbrace⟩ := (templateAt_cons _ _).mp hopen
      obtain ⟨u, hu⟩ := List.head?_eq_some_iff.mp hbrace
      rw [head?_doubleMarkers] at hbrace
      obtain ⟨more, rfl⟩ := List.head?_eq_some_iff.mp hbrace
      obtain rfl := ((isUncrossed_cons _ _).mp h).1 d more rfl hc hmark
      rw [hu] at hrest ⊢
      exact ends_marker hc (Ends.of_brace hrest)
  | case5 c d rest hc ih =>
    rw [doubleMarkers, if_neg hc]
    exact ends_cons (ih (isUncrossed_tail h)) (templateAt_of_not_isMark (Bool.eq_false_iff.mpr hc) _)
      (templateAt_doubleMarkers _)

theorem head?_escapeTemplates (s : List Char) : (escapeTemplates s).head? = s.head? := by
  cases s with
  | nil => rfl
  | cons c s =>
    rw [escapeTemplates]
    split
    · exact head?_doubleMarkers (c :: s)
    · rfl

theorem templateAt_escapeTemplates (s : List Char) : templateAt (escapeTemplates s) = false := by
  cases s with
  | nil => rfl
  | cons c s =>
    rw [escapeTemplates]
    split
    · exact templateAt_doubleMarkers (c :: s)
    · next hc => rwa [Bool.eq_false_iff, ne_eq, templateAt_cons, head?_escapeTemplates, ← templateAt_cons]

theorem ends_escapeTemplates {s : List Char} (h : isUncrossed s = true) : Ends (written (escapeTemplates s)) := by
  induction s with
  | nil => exact .quote
  | cons c s ih =>
    have hfirst := templateAt_escapeTemplates (c :: s)
    rw [escapeTemplates] at hfirst ⊢
    split
    · exact ends_doubleMarkers h
    · next hc =>
      rw [if_neg hc] at hfirst
      exact ends_cons (ih (isUncrossed_tail h)) hfirst (templateAt_escapeTemplates s)

/-- A text in which no marker is crossed is written as a literal. -/
theorem isLiteral_encode {s : List Char} (h : isUncrossed s = true) : IsLiteral (encode s) :=
  (ends_escapeTemplates h).isLiteral

example : plainString? (encode "%\x7bif a\x7d $%\x7belse\x7d".toList).tail = none := by decide

end ModuleScaffold.Hcl.Quoted
