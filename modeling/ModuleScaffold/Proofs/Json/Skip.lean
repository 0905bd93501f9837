import ModuleScaffold.Proofs.Json.Lexeme

/-! # Passing over values, wherever they stand

Main statement: `skipValue` takes the same value away from every text that begins with it, `isLocal_skipValue`. Its
step count only bounds the work: `3 * n` steps go past a value of `n` characters. -/

namespace ModuleScaffold.Json

open Passage

/-! ## Strings and numbers -/

/-- One character of a string, before a string that is passed over on its own. -/
theorem skipString_piece (piece : List Char) {s rest : List Char}
    (ih : skipString s = .ok rest → TakesAlways 1 (fun s rest => skipString s = .ok rest) s rest)
    (h : skipString (piece ++ s) = .ok rest) (hpiece : ∀ t, skipString (piece ++ t) = skipString t) :
    TakesAlways 1 (fun s rest => skipString s = .ok rest) (piece ++ s) rest := by
  rw [hpiece] at h
  refine (ih h).behind piece (by omega) ?_
  intro x t hx
  rw [hpiece, hx]

theorem isClosed_skipString : IsClosed 1 fun s rest => skipString s = .ok rest := by
  intro s rest h
  replace h : skipString s = .ok rest := h
  -- As for strings that are read, but the digits of an escape may be any.
  induction s using skipString.induct with
  | case2 s =>
    rw [skipString.eq_def] at h
    obtain rfl : s = rest := by simpa using h
    refine ⟨['"'], by simp, rfl, ?_⟩
    intro t
    show skipString ('"' :: t) = _
    rw [skipString.eq_def]
    rfl
  | case5 a b c d s n hn hc ih =>
    refine skipString_piece ['\\', 'u', a, b, c, d] ih h ?_
    intro t
    simp [skipString, *]
  | case7 e s he x hx hc ih =>
    refine skipString_piece ['\\', e] ih h ?_
    intro t
    simp [skipString, *]
  | case10 c s hquote hbackslash hcontrol ih =>
    refine skipString_piece [c] ih h ?_
    intro t
    rw [List.singleton_append, skipString.eq_def]
    simp [*]
  | case9 c s hquote hbackslash hcontrol =>
    rw [skipString.eq_def] at h
    simp [*, stop] at h
  | _ => simp_all [skipString, stop, badUnit_ne_ok]

/-- Passes over the digits of an exponent whose sign has been consumed. -/
def skipDigits (s : List Char) : Except Fault (List Char) :=
  match s with
  | [] => stop .invalidNumber [] 0
  | c :: rest => if Text.isDigit c then .ok (dropDigits rest) else stop .invalidNumber (c :: rest) 1

theorem isLocal_skipDigits : IsLocal 1 fun s rest => skipDigits s = .ok rest := by
  intro s rest h
  replace h : skipDigits s = .ok rest := h
  cases s with
  | nil => cases h
  | cons c s =>
    rw [skipDigits] at h
    split at h
    · next hc =>
      obtain rfl : dropDigits s = rest := by simpa using h
      refine isLocal_dropDigits.behind [c] rfl (Nat.le_refl _) ?_
      rintro x t - rfl
      exact if_pos hc
    · cases h

theorem skipExponent_unsigned {s : List Char} (hplus : s.head? ≠ some '+') (hminus : s.head? ≠ some '-') :
    skipExponent s = skipDigits s := by
  cases s with
  | nil => rfl
  | cons c s =>
    have hp : c ≠ '+' := by simpa using hplus
    have hm : c ≠ '-' := by simpa using hminus
    simp [skipExponent, skipDigits, hp, hm]

theorem isLocal_skipExponent : IsLocal 1 fun s rest => skipExponent s = .ok rest := by
  intro s rest h
  replace h : skipExponent s = .ok rest := h
  by_cases hplus : s.head? = some '+'
  · obtain ⟨s, rfl⟩ := List.head?_eq_some_iff.mp hplus
    exact isLocal_skipDigits.behind ['+'] h (by simp) fun _ _ _ hx => hx
  by_cases hminus : s.head? = some '-'
  · obtain ⟨s, rfl⟩ := List.head?_eq_some_iff.mp hminus
    exact isLocal_skipDigits.behind ['-'] h (by simp) fun _ _ _ hx => hx
  rw [skipExponent_unsigned hplus hminus] at h
  refine isLocal_skipDigits.behind [] h (Nat.le_refl _) ?_
  intro x t hhead hx
  rw [List.nil_append, skipExponent_unsigned (by rwa [hhead]) (by rwa [hhead])]
  exact hx

/-- Passes over an exponent if there is one. -/
def skipExponentOr (s : List Char) : Except Fault (List Char) :=
  match s with
  | 'e' :: rest => skipExponent rest
  | 'E' :: rest => skipExponent rest
  | other => .ok other

theorem skipExponentOr_plain {s : List Char} (hlower : s.head? ≠ some 'e') (hupper : s.head? ≠ some 'E') :
    skipExponentOr s = .ok s := by
  cases s with
  | nil => rfl
  | cons c s =>
    have hl : c ≠ 'e' := by simpa using hlower
    have hu : c ≠ 'E' := by simpa using hupper
    simp [skipExponentOr, hl, hu]

theorem isLocal_skipExponentOr : IsLocal 0 fun s rest => skipExponentOr s = .ok rest := by
  intro s rest h
  replace h : skipExponentOr s = .ok rest := h
  by_cases hlower : s.head? = some 'e'
  · obtain ⟨s, rfl⟩ := List.head?_eq_some_iff.mp hlower
    exact isLocal_skipExponent.behind ['e'] h (Nat.zero_le _) fun _ _ _ hx => hx
  by_cases hupper : s.head? = some 'E'
  · obtain ⟨s, rfl⟩ := List.head?_eq_some_iff.mp hupper
    exact isLocal_skipExponent.behind ['E'] h (Nat.zero_le _) fun _ _ _ hx => hx
  rw [skipExponentOr_plain hlower hupper] at h
  obtain rfl : s = rest := by simpa using h
  refine ⟨[], Nat.zero_le _, rfl, ?_⟩
  intro t ht
  exact skipExponentOr_plain (by rwa [List.nil_append, ht]) (by rwa [List.nil_append, ht])

theorem skipAfterWhole_point (s : List Char) :
    skipAfterWhole ('.' :: s) = if digitNext s then skipExponentOr (dropDigits s) else stopAt .invalidNumber s := rfl

theorem skipAfterWhole_plain {s : List Char} (hpoint : s.head? ≠ some '.') :
    skipAfterWhole s = skipExponentOr s := by
  cases s with
  | nil => rfl
  | cons c s =>
    have hp : c ≠ '.' := by simpa using hpoint
    by_cases hl : c = 'e'
    · rw [hl]
      rfl
    by_cases hu : c = 'E'
    · rw [hu]
      rfl
    simp [skipAfterWhole, skipExponentOr, hp, hl, hu]

theorem isLocal_skipAfterWhole : IsLocal 0 fun s rest => skipAfterWhole s = .ok rest := by
  intro s rest h
  replace h : skipAfterWhole s = .ok rest := h
  by_cases hpoint : s.head? = some '.'
  · obtain ⟨s, rfl⟩ := List.head?_eq_some_iff.mp hpoint
    rw [skipAfterWhole_point] at h
    cases hnext : digitNext s with
    | true =>
      rw [hnext, if_pos rfl] at h
      refine ((isLocal_digitNext true).then (isLocal_dropDigits.then isLocal_skipExponentOr)).behind ['.']
        ⟨s, ⟨rfl, hnext⟩, _, rfl, h⟩ (Nat.zero_le _) ?_
      rintro x t - ⟨_, ⟨rfl, hx⟩, y, rfl, ht⟩
      rw [List.singleton_append, skipAfterWhole_point, hx, if_pos rfl]
      exact ht
    | false => rw [hnext] at h; cases h
  rw [skipAfterWhole_plain hpoint] at h
  refine isLocal_skipExponentOr.behind [] h (Nat.zero_le _) ?_
  intro x t hhead hx
  rw [List.nil_append, skipAfterWhole_plain (by rwa [hhead])]
  exact hx

theorem isLocal_skipNumber : IsLocal 1 fun s rest => skipNumber s = .ok rest := by
  intro s rest h
  replace h : skipNumber s = .ok rest := h
  cases s with
  | nil => cases h
  | cons c s =>
    rw [skipNumber] at h
    split at h
    · next hzero =>
      cases hnext : digitNext s with
      | true => rw [hnext] at h; cases h
      | false =>
        rw [hnext, if_neg (by decide)] at h
        refine ((isLocal_digitNext false).then isLocal_skipAfterWhole).behind [c] ⟨s, ⟨rfl, hnext⟩, h⟩
          (Nat.le_refl _) ?_
        rintro x t - ⟨_, ⟨rfl, hx⟩, ht⟩
        rw [List.singleton_append, skipNumber, if_pos hzero, hx, if_neg (by decide)]
        exact ht
    · next hzero =>
      split at h
      · next hdigit =>
        refine (isLocal_dropDigits.then isLocal_skipAfterWhole).behind [c] ⟨_, rfl, h⟩ (Nat.le_refl _) ?_
        rintro x t - ⟨_, rfl, ht⟩
        rw [List.singleton_append, skipNumber, if_neg hzero, if_pos hdigit]
        exact ht
      · cases h

/-! ## Keys and scalars -/

theorem skipKey_eq_ok_iff {s rest : List Char} : skipKey s = .ok rest ↔
    ∃ key, skipSpaces s = '"' :: key ∧ ∃ tail, skipString key = .ok tail ∧ skipSpaces tail = ':' :: rest := by
  unfold skipKey
  cases skipSpaces s with
  | nil => simp [stopAt, stop]
  | cons c key =>
    by_cases hc : c = '"'
    · subst hc
      cases hkey : skipString key with
      | error f => simp [hkey]
      | ok tail =>
        cases htail : skipSpaces tail with
        | nil => simp [hkey, htail, stopAt, stop]
        | cons d tail =>
          by_cases hd : d = ':' <;> simp [hkey, htail, hd, stopAt, stop]
    · simp [hc, stopAt, stop]

theorem isClosed_skipKey : IsClosed 1 fun s rest => skipKey s = .ok rest := by
  intro s rest h
  have hparts := (isClosed_spaced '"').isLocal.thenClosed (isClosed_skipString.isLocal.thenClosed (isClosed_spaced ':'))
  exact hparts.via (skipKey_eq_ok_iff.mp h) (by omega) fun _ _ => skipKey_eq_ok_iff.mpr

theorem isLocal_skipScalar (c : Char) : IsLocal 0 fun s rest => skipScalar c s = .ok rest := by
  have hword (word : List Char) := (isClosed_expectWord word).isLocal.weaken (Nat.zero_le _)
  unfold skipScalar
  by_cases hn : c = 'n'
  · simpa only [if_pos hn] using hword ['u', 'l', 'l']
  by_cases ht : c = 't'
  · simpa only [if_neg hn, if_pos ht] using hword ['r', 'u', 'e']
  by_cases hf : c = 'f'
  · simpa only [if_neg hn, if_neg ht, if_pos hf] using hword ['a', 'l', 's', 'e']
  by_cases hminus : c = '-'
  · simpa only [if_neg hn, if_neg ht, if_neg hf, if_pos hminus] using isLocal_skipNumber.weaken (Nat.zero_le _)
  by_cases hdigit : Text.isDigit c = true
  · simpa only [if_neg hn, if_neg ht, if_neg hf, if_neg hminus, if_pos hdigit] using isLocal_skipNumber.tail c
  by_cases hquote : c = '"'
  · simpa only [if_neg hn, if_neg ht, if_neg hf, if_neg hminus, if_neg hdigit, if_pos hquote] using
      isClosed_skipString.isLocal.weaken (Nat.zero_le _)
  · intro s rest h
    rw [if_neg hn, if_neg ht, if_neg hf, if_neg hminus, if_neg hdigit, if_neg hquote] at h
    cases h

/-! ## Values in their frames -/

section Frames

variable {frame : Frame} {frames : List Frame} {steps : Nat} {s rest : List Char}

theorem skipFrom_eq_ok_iff : skipFrom frames s (steps + 1) = .ok rest ↔
    (∃ tail, skipSpaces s = '[' :: tail ∧ skipOpened .list frames tail steps = .ok rest) ∨
    (∃ tail, skipSpaces s = '\x7b' :: tail ∧ skipOpened .object frames tail steps = .ok rest) ∨
    ∃ c tail, skipSpaces s = c :: tail ∧ ∃ middle, skipScalar c tail = .ok middle ∧
      skipAfter frames middle steps = .ok rest := by
  rw [skipFrom]
  cases skipSpaces s with
  | nil => simp [stopAt, stop]
  | cons c tail =>
    by_cases hlist : c = '['
    · simp [hlist, skipScalar, stopAt, stop, Text.isDigit]
    by_cases hobject : c = '\x7b'
    · simp [hobject, skipScalar, stopAt, stop, Text.isDigit]
    simp only [List.cons.injEq, hlist, hobject, if_false, false_and, exists_false, false_or]
    constructor
    · intro h
      cases hscalar : skipScalar c tail with
      | error f => simp [hscalar] at h
      | ok middle => exact ⟨c, tail, ⟨rfl, rfl⟩, middle, hscalar, by simpa [hscalar] using h⟩
    · rintro ⟨_, _, ⟨rfl, rfl⟩, middle, hscalar, hafter⟩
      simpa [hscalar] using hafter

theorem skipOpened_eq_ok_iff : skipOpened frame frames s (steps + 1) = .ok rest ↔
    (∃ tail, skipSpaces s = frame.close :: tail ∧ skipAfter frames tail steps = .ok rest) ∨
    ∃ middle, skipSpaces s = middle ∧ (middle.head? ≠ none ∧ middle.head? ≠ some frame.close) ∧
      skipElement frame frames middle steps = .ok rest := by
  rw [skipOpened]
  cases skipSpaces s with
  | nil => simp [stopAt, stop]
  | cons c tail => by_cases hc : c = frame.close <;> simp [hc]

theorem skipElement_eq_ok_iff : skipElement frame frames s (steps + 1) = .ok rest ↔
    (frame = .list ∧ skipFrom (.list :: frames) s steps = .ok rest) ∨
    (frame = .object ∧ ∃ middle, skipKey s = .ok middle ∧ skipFrom (.object :: frames) middle steps = .ok rest) := by
  cases frame with
  | list => simp [skipElement]
  | object => cases hkey : skipKey s <;> simp [skipElement, hkey]

theorem skipAfter_eq_ok_iff : skipAfter (frame :: frames) s (steps + 1) = .ok rest ↔
    (∃ tail, skipSpaces s = ',' :: tail ∧ skipElement frame frames tail steps = .ok rest) ∨
    ∃ tail, skipSpaces s = frame.close :: tail ∧ skipAfter frames tail steps = .ok rest := by
  have hclose : frame.close ≠ ',' := by cases frame <;> decide
  rw [skipAfter]
  cases skipSpaces s with
  | nil => simp [stopAt, stop]
  | cons c tail =>
    by_cases hcomma : c = ','
    · simp [hcomma, hclose.symm]
    by_cases hc : c = frame.close
    · simp [hc, hclose]
    · simp [hcomma, hc, stopAt, stop]

end Frames

mutual

theorem isLocal_skipFrom (frames : List Frame) :
    ∀ steps, IsLocal 1 fun s rest => skipFrom frames s steps = .ok rest
  | 0 => fun _ _ h => by cases h
  | steps + 1 => by
    intro s rest h
    obtain hlist | hobject | ⟨c, tail, htail, hscalar⟩ := skipFrom_eq_ok_iff.mp h
    · have hparts := (isClosed_spaced '[').isLocal.then (isLocal_skipOpened .list frames steps)
      exact hparts.via hlist (Nat.le_refl _) fun _ _ hx => skipFrom_eq_ok_iff.mpr (.inl hx)
    · have hparts := (isClosed_spaced '\x7b').isLocal.then (isLocal_skipOpened .object frames steps)
      exact hparts.via hobject (Nat.le_refl _) fun _ _ hx => skipFrom_eq_ok_iff.mpr (.inr (.inl hx))
    · have hparts := (isClosed_spaced c).isLocal.then ((isLocal_skipScalar c).then (isLocal_skipAfter frames steps))
      refine hparts.via ⟨tail, htail, hscalar⟩ (Nat.le_refl _) ?_
      exact fun _ _ ⟨tail, htail, hx⟩ => skipFrom_eq_ok_iff.mpr (.inr (.inr ⟨c, tail, htail, hx⟩))

theorem isLocal_skipOpened (frame : Frame) (frames : List Frame) :
    ∀ steps, IsLocal 0 fun s rest => skipOpened frame frames s steps = .ok rest
  | 0 => fun _ _ h => by cases h
  | steps + 1 => by
    intro s rest h
    obtain hclose | ⟨middle, hmiddle, hfits, helement⟩ := skipOpened_eq_ok_iff.mp h
    · have hparts := (isClosed_spaced frame.close).isLocal.then (isLocal_skipAfter frames steps)
      exact hparts.via hclose (Nat.zero_le _) fun _ _ hx => skipOpened_eq_ok_iff.mpr (.inl hx)
    · have hfit : IsLocal 0 fun s rest => rest = s ∧ s.head? ≠ none ∧ s.head? ≠ some frame.close :=
        isLocal_stay fun ht hs => by rwa [ht]
      have hparts := isLocal_skipSpaces.then (hfit.then (isLocal_skipElement frame frames steps))
      refine hparts.via ⟨middle, hmiddle, middle, ⟨rfl, hfits⟩, helement⟩ (Nat.zero_le _) ?_
      rintro x t ⟨_, hx, middle, ⟨rfl, hfits⟩, helement⟩
      exact skipOpened_eq_ok_iff.mpr (.inr ⟨middle, hx, hfits, helement⟩)

theorem isLocal_skipElement (frame : Frame) (frames : List Frame) :
    ∀ steps, IsLocal 1 fun s rest => skipElement frame frames s steps = .ok rest
  | 0 => fun _ _ h => by cases h
  | steps + 1 => by
    intro s rest h
    obtain ⟨hlist, hfrom⟩ | ⟨hobject, hmember⟩ := skipElement_eq_ok_iff.mp h
    · exact (isLocal_skipFrom (.list :: frames) steps).via hfrom (Nat.le_refl _) fun _ _ hx =>
        skipElement_eq_ok_iff.mpr (.inl ⟨hlist, hx⟩)
    · have hparts := isClosed_skipKey.isLocal.then (isLocal_skipFrom (.object :: frames) steps)
      exact hparts.via hmember (by omega) fun _ _ hx => skipElement_eq_ok_iff.mpr (.inr ⟨hobject, hx⟩)

theorem isLocal_skipAfter : ∀ frames steps, IsLocal 0 fun s rest => skipAfter frames s steps = .ok rest
  | _, 0 => fun _ _ h => by cases h
  | [], steps + 1 => by
    intro s rest h
    obtain rfl := Except.ok.inj h
    exact ⟨[], Nat.zero_le _, rfl, fun _ _ => rfl⟩
  | frame :: frames, steps + 1 => by
    intro s rest h
    obtain hcomma | hclose := skipAfter_eq_ok_iff.mp h
    · have hparts := (isClosed_spaced ',').isLocal.then (isLocal_skipElement frame frames steps)
      exact hparts.via hcomma (Nat.zero_le _) fun _ _ hx => skipAfter_eq_ok_iff.mpr (.inl hx)
    · have hparts := (isClosed_spaced frame.close).isLocal.then (isLocal_skipAfter frames steps)
      exact hparts.via hclose (Nat.zero_le _) fun _ _ hx => skipAfter_eq_ok_iff.mpr (.inr hx)

end

/-! ## Steps

A value that can be passed over at all is passed over in `3 * n` steps, where `n` characters are taken. The other
parts need a step or two to get to their first character. -/

theorem length_spaced {s rest : List Char} {c : Char} (h : skipSpaces s = c :: rest) : rest.length + 1 ≤ s.length :=
  (isClosed_spaced c).isLocal.length_le h

mutual

theorem skipFrom_of_steps {frames : List Frame} {s rest : List Char} : ∀ {steps m : Nat},
    skipFrom frames s steps = .ok rest → 3 * s.length ≤ m + 3 * rest.length → skipFrom frames s m = .ok rest
  | 0, _, h, _ => by cases h
  | steps + 1, 0, h, hm => by
    have hlength := (isLocal_skipFrom frames (steps + 1)).length_le h
    omega
  | steps + 1, m + 1, h, hm => by
    obtain ⟨tail, htail, hopened⟩ | ⟨tail, htail, hopened⟩ | ⟨c, tail, htail, middle, hscalar, hafter⟩ :=
      skipFrom_eq_ok_iff.mp h
    · have hlength := length_spaced htail
      exact skipFrom_eq_ok_iff.mpr (.inl ⟨tail, htail, skipOpened_of_steps hopened (by omega)⟩)
    · have hlength := length_spaced htail
      exact skipFrom_eq_ok_iff.mpr (.inr (.inl ⟨tail, htail, skipOpened_of_steps hopened (by omega)⟩))
    · have hlength := length_spaced htail
      have hscalarLength := (isLocal_skipScalar c).length_le hscalar
      exact skipFrom_eq_ok_iff.mpr
        (.inr (.inr ⟨c, tail, htail, middle, hscalar, skipAfter_of_steps hafter (by omega)⟩))
termination_by structural steps => steps

theorem skipOpened_of_steps {frame : Frame} {frames : List Frame} {s rest : List Char} : ∀ {steps m : Nat},
    skipOpened frame frames s steps = .ok rest → 3 * s.length + 2 ≤ m + 3 * rest.length →
      skipOpened frame frames s m = .ok rest
  | 0, _, h, _ => by cases h
  | steps + 1, 0, h, hm => by
    have hlength := (isLocal_skipOpened frame frames (steps + 1)).length_le h
    omega
  | steps + 1, m + 1, h, hm => by
    obtain ⟨tail, htail, hafter⟩ | ⟨middle, hmiddle, hfits, helement⟩ := skipOpened_eq_ok_iff.mp h
    · have hlength := length_spaced htail
      exact skipOpened_eq_ok_iff.mpr (.inl ⟨tail, htail, skipAfter_of_steps hafter (by omega)⟩)
    · have hlength := isLocal_skipSpaces.length_le hmiddle
      exact skipOpened_eq_ok_iff.mpr (.inr ⟨middle, hmiddle, hfits, skipElement_of_steps helement (by omega)⟩)
termination_by structural steps => steps

theorem skipElement_of_steps {frame : Frame} {frames : List Frame} {s rest : List Char} : ∀ {steps m : Nat},
    skipElement frame frames s steps = .ok rest → 3 * s.length + 1 ≤ m + 3 * rest.length →
      skipElement frame frames s m = .ok rest
  | 0, _, h, _ => by cases h
  | steps + 1, 0, h, hm => by
    have hlength := (isLocal_skipElement frame frames (steps + 1)).length_le h
    omega
  | steps + 1, m + 1, h, hm => by
    obtain ⟨hlist, hfrom⟩ | ⟨hobject, middle, hkey, hfrom⟩ := skipElement_eq_ok_iff.mp h
    · exact skipElement_eq_ok_iff.mpr (.inl ⟨hlist, skipFrom_of_steps hfrom (by omega)⟩)
    · have hlength := isClosed_skipKey.isLocal.length_le hkey
      exact skipElement_eq_ok_iff.mpr (.inr ⟨hobject, middle, hkey, skipFrom_of_steps hfrom (by omega)⟩)
termination_by structural steps => steps

theorem skipAfter_of_steps : ∀ {frames : List Frame} {s rest : List Char} {steps m : Nat},
    skipAfter frames s steps = .ok rest → 3 * s.length + 1 ≤ m + 3 * rest.length → skipAfter frames s m = .ok rest
  | _, _, _, 0, _, h, _ => by cases h
  | frames, _, _, steps + 1, 0, h, hm => by
    have hlength := (isLocal_skipAfter frames (steps + 1)).length_le h
    omega
  | [], _, _, steps + 1, m + 1, h, _ => h
  | frame :: frames, _, _, steps + 1, m + 1, h, hm => by
    obtain ⟨tail, htail, helement⟩ | ⟨tail, htail, hafter⟩ := skipAfter_eq_ok_iff.mp h
    · have hlength := length_spaced htail
      exact skipAfter_eq_ok_iff.mpr (.inl ⟨tail, htail, skipElement_of_steps helement (by omega)⟩)
    · have hlength := length_spaced htail
      exact skipAfter_eq_ok_iff.mpr (.inr ⟨tail, htail, skipAfter_of_steps hafter (by omega)⟩)
termination_by structural _ _ _ steps => steps

end

theorem isLocal_skipValue : IsLocal 1 fun s rest => skipValue s = .ok rest := by
  intro s rest h
  obtain ⟨taken, hn, rfl, hagain⟩ := isLocal_skipFrom [] _ h
  refine ⟨taken, hn, rfl, ?_⟩
  intro t ht
  refine skipFrom_of_steps (hagain t ht) ?_
  rw [List.length_append]
  omega

end ModuleScaffold.Json
