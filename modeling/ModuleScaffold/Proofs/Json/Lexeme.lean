import ModuleScaffold.Json.Skip
import ModuleScaffold.Json.Read
import ModuleScaffold.Proofs.Json.Passage

/-! # Words, strings and numbers, wherever they stand

Main statement: the readers of words and strings are closed, and those of numbers are local. -/

namespace ModuleScaffold.Json

open Passage

theorem isLocal_skipSpaces : IsLocal 0 fun s rest => skipSpaces s = rest := isLocal_dropWhile isSpace

theorem isClosed_spaced (c : Char) : IsClosed 1 fun s rest => skipSpaces s = c :: rest :=
  isLocal_skipSpaces.thenChar c

theorem expectWord_eq_ok_iff (word : List Char) {s rest : List Char} :
    expectWord word s = .ok rest ↔ s = word ++ rest := by
  induction word generalizing s with
  | nil => simp [expectWord]
  | cons w word ih =>
    cases s with
    | nil => simp [expectWord, stop]
    | cons c s =>
      rw [expectWord]
      split
      · next hc => rw [ih, hc, List.cons_append, List.cons.injEq, eq_self, true_and]
      · next hc => simp [stop, Ne.symm hc]

theorem isClosed_expectWord (word : List Char) : IsClosed word.length fun s rest => expectWord word s = .ok rest := by
  intro s rest h
  obtain rfl := (expectWord_eq_ok_iff word).mp h
  exact ⟨word, Nat.le_refl _, rfl, fun _ => (expectWord_eq_ok_iff word).mpr rfl⟩

theorem consTo_eq_ok_iff {c : Char} {r : Except Fault (List Char × List Char)} {cs rest : List Char} :
    consTo c r = .ok (cs, rest) ↔ ∃ more, r = .ok (more, rest) ∧ cs = c :: more := by
  cases r with
  | error f => simp [consTo]
  | ok p =>
    obtain ⟨more, rest'⟩ := p
    simp only [consTo, Except.ok.injEq, Prod.mk.injEq]
    constructor
    · rintro ⟨rfl, rfl⟩
      exact ⟨more, ⟨rfl, rfl⟩, rfl⟩
    · rintro ⟨more', ⟨rfl, rfl⟩, rfl⟩
      exact ⟨rfl, rfl⟩

theorem badUnit_ne_ok {α : Type} (s : List Char) (a : α) : badUnit s ≠ .ok a := by
  unfold badUnit
  split <;> simp [stop]

/-- One character of a string, before a string that is read on its own. -/
theorem stringBody_piece (piece : List Char) (c : Char) {s cs rest : List Char}
    (ih : ∀ cs, stringBody s = .ok (cs, rest) → TakesAlways 1 (fun s rest => stringBody s = .ok (cs, rest)) s rest)
    (h : stringBody (piece ++ s) = .ok (cs, rest))
    (hpiece : ∀ t, stringBody (piece ++ t) = consTo c (stringBody t)) :
    TakesAlways 1 (fun s rest => stringBody s = .ok (cs, rest)) (piece ++ s) rest := by
  rw [hpiece, consTo_eq_ok_iff] at h
  obtain ⟨more, hmore, rfl⟩ := h
  refine (ih more hmore).behind piece (by omega) ?_
  intro x t hx
  rw [hpiece, hx]
  rfl

theorem isClosed_stringBody (cs : List Char) : IsClosed 1 fun s rest => stringBody s = .ok (cs, rest) := by
  intro s rest h
  replace h : stringBody s = .ok (cs, rest) := h
  -- A string goes on behind four kinds of pieces; the cases that are not named are faults.
  induction s using stringBody.induct generalizing cs with
  | case2 s =>
    rw [stringBody.eq_def] at h
    simp only [if_true, Except.ok.injEq, Prod.mk.injEq] at h
    obtain ⟨rfl, rfl⟩ := h
    refine ⟨['"'], by simp, rfl, ?_⟩
    intro t
    show stringBody ('"' :: t) = _
    rw [stringBody.eq_def]
    rfl
  | case9 a₁ b₁ c₁ d₁ n hn hleading ha a₂ b₂ c₂ d₂ s m hm htrailing hc ih =>
    refine stringBody_piece ['\\', 'u', a₁, b₁, c₁, d₁, '\\', 'u', a₂, b₂, c₂, d₂] (paired n m) ih h ?_
    intro t
    simp [stringBody, *]
  | case14 a b c d s n hn ht hl hc ih =>
    refine stringBody_piece ['\\', 'u', a, b, c, d] (Char.ofNat n) ih h ?_
    intro t
    simp [stringBody, *]
  | case16 e s he x hx hc ih =>
    refine stringBody_piece ['\\', e] x ih h ?_
    intro t
    simp [stringBody, *]
  | case19 c s hquote hbackslash hcontrol ih =>
    refine stringBody_piece [c] c ih h ?_
    intro t
    rw [List.singleton_append, stringBody.eq_def]
    simp [*]
  | case18 c s hquote hbackslash hcontrol =>
    rw [stringBody.eq_def] at h
    simp [*, stop] at h
  | _ => simp_all [stringBody, stop, badUnit_ne_ok]

/-! ## Numbers -/

theorem digitNext_congr {s t : List Char} (h : t.head? = s.head?) : digitNext t = digitNext s := by
  cases s <;> cases t <;> simp_all [digitNext]

theorem isLocal_digitNext (b : Bool) : IsLocal 0 fun s rest => rest = s ∧ digitNext s = b :=
  isLocal_stay fun ht hs => (digitNext_congr ht).trans hs

theorem isLocal_dropDigits : IsLocal 0 fun s rest => dropDigits s = rest := isLocal_dropWhile Text.isDigit

theorem isLocal_digitsWithin (limit value count value' count' : Nat) :
    IsLocal 0 fun s rest => digitsWithin limit value count s = (value', count', rest) := by
  intro s rest h
  replace h : digitsWithin limit value count s = (value', count', rest) := h
  induction s generalizing value count with
  | nil =>
    rw [digitsWithin] at h
    obtain ⟨rfl, rfl, rfl⟩ : value = value' ∧ count = count' ∧ [] = rest := by simpa using h
    refine ⟨[], Nat.zero_le _, rfl, ?_⟩
    intro t ht
    rw [List.head?_eq_none_iff.mp ht]
    rfl
  | cons c s ih =>
    rw [digitsWithin] at h
    split at h
    · next hc =>
      obtain ⟨taken, -, rfl, hagain⟩ := ih _ _ h
      refine ⟨c :: taken, Nat.zero_le _, rfl, ?_⟩
      intro t ht
      show digitsWithin limit value count (c :: (taken ++ t)) = _
      rw [digitsWithin, if_pos hc]
      exact hagain t ht
    · next hc =>
      obtain ⟨rfl, rfl, rfl⟩ : value = value' ∧ count = count' ∧ c :: s = rest := by simpa using h
      refine ⟨[], Nat.zero_le _, rfl, ?_⟩
      intro t ht
      obtain ⟨t, rfl⟩ := List.head?_eq_some_iff.mp ht
      show digitsWithin limit value count (c :: t) = _
      rw [digitsWithin, if_neg hc]

/-- A decimal is settled before anything behind it is looked at. -/
theorem decimal_eq_ok_iff {isNegative : Bool} {significand : Nat} {exponent : Int} {s rest : List Char}
    {n : Number} : decimal isNegative significand exponent s = .ok (n, rest) ↔
      rest = s ∧ (Number.toFloat? isNegative significand.toUInt64 exponent).isSome = true ∧
        n = .decimal isNegative significand.toUInt64 exponent := by
  unfold decimal
  cases Number.toFloat? isNegative significand.toUInt64 exponent with
  | none => simp [stop]
  | some x =>
    simp only [Except.ok.injEq, Prod.mk.injEq, Option.isSome_some, true_and]
    constructor
    · rintro ⟨rfl, rfl⟩
      exact ⟨rfl, rfl⟩
    · rintro ⟨rfl, rfl⟩
      exact ⟨rfl, rfl⟩

theorem isLocal_decimal (isNegative : Bool) (significand : Nat) (exponent : Int) (n : Number) :
    IsLocal 0 fun s rest => decimal isNegative significand exponent s = .ok (n, rest) := by
  intro s rest h
  obtain ⟨rfl, hsettled⟩ := decimal_eq_ok_iff.mp h
  exact ⟨[], Nat.zero_le _, rfl, fun _ _ => decimal_eq_ok_iff.mpr ⟨rfl, hsettled⟩⟩

/-- Reads the digits of an exponent whose sign has been consumed. -/
def exponentDigits (isNegative : Bool) (significand : Nat) (before : Int) (down : Bool) (s : List Char) :
    Except Fault (Number × List Char) :=
  match s with
  | [] => stop .endInValue [] 0
  | c :: rest =>
    if Text.isDigit c then
      let (e, _, rest) := digitsWithin exponentLimit (digitValue c) 0 rest
      if digitNext rest then
        if significand ≠ 0 && !down then stop .numberOutOfRange (rest.drop 1) 0
        else .ok (.decimal isNegative 0 0, dropDigits rest)
      else decimal isNegative significand (if down then before - e else before + e) rest
    else stop .invalidNumber (c :: rest) 1

theorem isLocal_exponentDigits (isNegative : Bool) (significand : Nat) (before : Int) (down : Bool) (n : Number) :
    IsLocal 1 fun s rest => exponentDigits isNegative significand before down s = .ok (n, rest) := by
  intro s rest h
  replace h : exponentDigits isNegative significand before down s = .ok (n, rest) := h
  cases s with
  | nil => cases h
  | cons c s =>
    simp only [exponentDigits] at h
    split at h
    · next hc =>
      obtain ⟨⟨value, count, middle⟩, hw⟩ : ∃ p, digitsWithin exponentLimit (digitValue c) 0 s = p := ⟨_, rfl⟩
      have hdigits := isLocal_digitsWithin exponentLimit (digitValue c) 0 value count
      simp only [hw] at h
      cases hnext : digitNext middle with
      | true =>
        rw [hnext, if_pos rfl] at h
        split at h
        · cases h
        · next hfits =>
          obtain ⟨rfl, hdrop⟩ : Number.decimal isNegative 0 0 = n ∧ dropDigits middle = rest := by simpa using h
          refine (hdigits.then ((isLocal_digitNext true).then isLocal_dropDigits)).behind [c]
            ⟨middle, hw, middle, ⟨rfl, hnext⟩, hdrop⟩ (Nat.le_refl _) ?_
          rintro x t - ⟨y, hx, _, ⟨rfl, hy⟩, ht⟩
          simp only [List.singleton_append, exponentDigits, hc, if_true, hx, hy, hfits, Bool.false_eq_true, if_false,
            ht]
      | false =>
        rw [hnext, if_neg (by decide)] at h
        refine (hdigits.then ((isLocal_digitNext false).then (isLocal_decimal _ _ _ n))).behind [c]
          ⟨middle, hw, middle, ⟨rfl, hnext⟩, h⟩ (Nat.le_refl _) ?_
        rintro x t - ⟨y, hx, _, ⟨rfl, hy⟩, ht⟩
        simp only [List.singleton_append, exponentDigits, hc, if_true, hx, hy, Bool.false_eq_true, if_false, ht]
    · cases h

theorem exponentPart_unsigned (isNegative : Bool) (significand : Nat) (before : Int) {s : List Char}
    (hplus : s.head? ≠ some '+') (hminus : s.head? ≠ some '-') :
    exponentPart isNegative significand before s = exponentDigits isNegative significand before false s := by
  cases s with
  | nil => rfl
  | cons c s =>
    have hp : c ≠ '+' := by simpa using hplus
    have hm : c ≠ '-' := by simpa using hminus
    simp [exponentPart, exponentDigits, hp, hm]

theorem isLocal_exponentPart (isNegative : Bool) (significand : Nat) (before : Int) (n : Number) :
    IsLocal 1 fun s rest => exponentPart isNegative significand before s = .ok (n, rest) := by
  intro s rest h
  replace h : exponentPart isNegative significand before s = .ok (n, rest) := h
  have hdigits (down : Bool) := isLocal_exponentDigits isNegative significand before down n
  by_cases hplus : s.head? = some '+'
  · obtain ⟨s, rfl⟩ := List.head?_eq_some_iff.mp hplus
    exact (hdigits false).behind ['+'] h (by simp) fun _ _ _ hx => hx
  by_cases hminus : s.head? = some '-'
  · obtain ⟨s, rfl⟩ := List.head?_eq_some_iff.mp hminus
    exact (hdigits true).behind ['-'] h (by simp) fun _ _ _ hx => hx
  rw [exponentPart_unsigned _ _ _ hplus hminus] at h
  refine (hdigits false).behind [] h (Nat.le_refl _) ?_
  intro x t hhead hx
  rw [List.nil_append, exponentPart_unsigned _ _ _ (by rwa [hhead]) (by rwa [hhead])]
  exact hx

theorem exponentOr_plain (isNegative : Bool) (significand : Nat) (before : Int) {s : List Char}
    (hlower : s.head? ≠ some 'e') (hupper : s.head? ≠ some 'E') :
    exponentOr isNegative significand before s = decimal isNegative significand before s := by
  cases s with
  | nil => rfl
  | cons c s =>
    have hl : c ≠ 'e' := by simpa using hlower
    have hu : c ≠ 'E' := by simpa using hupper
    simp [exponentOr, hl, hu]

theorem isLocal_exponentOr (isNegative : Bool) (significand : Nat) (before : Int) (n : Number) :
    IsLocal 0 fun s rest => exponentOr isNegative significand before s = .ok (n, rest) := by
  intro s rest h
  replace h : exponentOr isNegative significand before s = .ok (n, rest) := h
  have hpart := isLocal_exponentPart isNegative significand before n
  by_cases hlower : s.head? = some 'e'
  · obtain ⟨s, rfl⟩ := List.head?_eq_some_iff.mp hlower
    exact hpart.behind ['e'] h (Nat.zero_le _) fun _ _ _ hx => hx
  by_cases hupper : s.head? = some 'E'
  · obtain ⟨s, rfl⟩ := List.head?_eq_some_iff.mp hupper
    exact hpart.behind ['E'] h (Nat.zero_le _) fun _ _ _ hx => hx
  rw [exponentOr_plain _ _ _ hlower hupper] at h
  refine (isLocal_decimal isNegative significand before n).behind [] h (Nat.le_refl _) ?_
  intro x t hhead hx
  rw [List.nil_append, exponentOr_plain _ _ _ (by rwa [hhead]) (by rwa [hhead])]
  exact hx

theorem isLocal_fractionPart (isNegative : Bool) (significand : Nat) (before : Int) (n : Number) :
    IsLocal 0 fun s rest => fractionPart isNegative significand before s = .ok (n, rest) := by
  intro s rest h
  replace h : fractionPart isNegative significand before s = .ok (n, rest) := h
  obtain ⟨⟨value, count, middle⟩, hw⟩ : ∃ p, digitsWithin wordLimit significand 0 s = p := ⟨_, rfl⟩
  have hdigits := isLocal_digitsWithin wordLimit significand 0 value count
  have hor := isLocal_exponentOr isNegative value (before - count) n
  simp only [fractionPart, hw] at h
  cases hnext : digitNext middle with
  | true =>
    rw [hnext, if_pos rfl] at h
    refine (hdigits.then ((isLocal_digitNext true).then (isLocal_dropDigits.then hor))).behind []
      ⟨middle, hw, middle, ⟨rfl, hnext⟩, _, rfl, h⟩ (Nat.le_refl _) ?_
    rintro x t - ⟨y, hx, _, ⟨rfl, hy⟩, z, rfl, ht⟩
    simp only [List.nil_append, fractionPart, hx, hy, if_true, ht]
  | false =>
    rw [hnext, if_neg (by decide)] at h
    split at h
    · split at h <;> cases h
    · next hcount =>
      refine (hdigits.then ((isLocal_digitNext false).then hor)).behind []
        ⟨middle, hw, middle, ⟨rfl, hnext⟩, h⟩ (Nat.le_refl _) ?_
      rintro x t - ⟨y, hx, _, ⟨rfl, hy⟩, ht⟩
      simp only [List.nil_append, fractionPart, hx, hy, Bool.false_eq_true, if_false, hcount, ht]

/-- What a whole number that is kept exactly is read as. -/
def wholeNumber (isNegative : Bool) (value : Nat) : Number :=
  if !isNegative then .whole value.toUInt64
  else if value = 0 || 0x8000000000000000 < value then .decimal true value.toUInt64 0
  else .negative value.toUInt64

theorem afterWhole_plain (isNegative : Bool) (value : Nat) {s : List Char} (hpoint : s.head? ≠ some '.')
    (hlower : s.head? ≠ some 'e') (hupper : s.head? ≠ some 'E') :
    afterWhole isNegative value s = .ok (wholeNumber isNegative value, s) := by
  have hplain : afterWhole isNegative value s =
      if !isNegative then .ok (.whole value.toUInt64, s)
      else if value = 0 || 0x8000000000000000 < value then .ok (.decimal true value.toUInt64 0, s)
      else .ok (.negative value.toUInt64, s) := by
    cases s with
    | nil => rfl
    | cons c s =>
      have hp : c ≠ '.' := by simpa using hpoint
      have hl : c ≠ 'e' := by simpa using hlower
      have hu : c ≠ 'E' := by simpa using hupper
      simp [afterWhole, hp, hl, hu]
  rw [hplain, wholeNumber]
  split
  · rfl
  · split <;> rfl

theorem isLocal_afterWhole (isNegative : Bool) (value : Nat) (n : Number) :
    IsLocal 0 fun s rest => afterWhole isNegative value s = .ok (n, rest) := by
  intro s rest h
  replace h : afterWhole isNegative value s = .ok (n, rest) := h
  have hpart := isLocal_exponentPart isNegative value 0 n
  by_cases hpoint : s.head? = some '.'
  · obtain ⟨s, rfl⟩ := List.head?_eq_some_iff.mp hpoint
    exact (isLocal_fractionPart isNegative value 0 n).behind ['.'] h (Nat.zero_le _) fun _ _ _ hx => hx
  by_cases hlower : s.head? = some 'e'
  · obtain ⟨s, rfl⟩ := List.head?_eq_some_iff.mp hlower
    exact hpart.behind ['e'] h (Nat.zero_le _) fun _ _ _ hx => hx
  by_cases hupper : s.head? = some 'E'
  · obtain ⟨s, rfl⟩ := List.head?_eq_some_iff.mp hupper
    exact hpart.behind ['E'] h (Nat.zero_le _) fun _ _ _ hx => hx
  rw [afterWhole_plain _ _ hpoint hlower hupper] at h
  obtain ⟨rfl, rfl⟩ : wholeNumber isNegative value = n ∧ s = rest := by simpa using h
  refine ⟨[], Nat.zero_le _, rfl, ?_⟩
  intro t ht
  show afterWhole isNegative value t = _
  exact afterWhole_plain _ _ (by rwa [ht]) (by rwa [ht]) (by rwa [ht])

/-- Reads what follows the digits of a whole part that is not kept exactly. -/
def fractionOr (isNegative : Bool) (value : Nat) (further : Int) (s : List Char) :
    Except Fault (Number × List Char) :=
  match s with
  | '.' :: rest => fractionPart isNegative value further rest
  | other => exponentOr isNegative value further other

theorem fractionOr_plain (isNegative : Bool) (value : Nat) (further : Int) {s : List Char}
    (hpoint : s.head? ≠ some '.') :
    fractionOr isNegative value further s = exponentOr isNegative value further s := by
  cases s with
  | nil => rfl
  | cons c s =>
    have hp : c ≠ '.' := by simpa using hpoint
    simp [fractionOr, hp]

theorem isLocal_fractionOr (isNegative : Bool) (value : Nat) (further : Int) (n : Number) :
    IsLocal 0 fun s rest => fractionOr isNegative value further s = .ok (n, rest) := by
  intro s rest h
  replace h : fractionOr isNegative value further s = .ok (n, rest) := h
  by_cases hpoint : s.head? = some '.'
  · obtain ⟨s, rfl⟩ := List.head?_eq_some_iff.mp hpoint
    exact (isLocal_fractionPart isNegative value further n).behind ['.'] h (Nat.zero_le _) fun _ _ _ hx => hx
  rw [fractionOr_plain _ _ _ hpoint] at h
  refine (isLocal_exponentOr isNegative value further n).behind [] h (Nat.le_refl _) ?_
  intro x t hhead hx
  rw [List.nil_append, fractionOr_plain _ _ _ (by rwa [hhead])]
  exact hx

theorem numberBody_cons (isNegative : Bool) (c : Char) (s : List Char) :
    numberBody isNegative (c :: s) =
      if c = '0' then if digitNext s then stopAt .invalidNumber s else afterWhole isNegative 0 s
      else if Text.isDigit c then
        if digitNext (digitsWithin wordLimit (digitValue c) 0 s).2.2 then
          fractionOr isNegative (digitsWithin wordLimit (digitValue c) 0 s).1
            (((digitsWithin wordLimit (digitValue c) 0 s).2.2.takeWhile Text.isDigit).length)
            (dropDigits (digitsWithin wordLimit (digitValue c) 0 s).2.2)
        else
          afterWhole isNegative (digitsWithin wordLimit (digitValue c) 0 s).1
            (digitsWithin wordLimit (digitValue c) 0 s).2.2
      else stop .invalidNumber (c :: s) 1 := rfl

theorem isLocal_numberBody (isNegative : Bool) (n : Number) :
    IsLocal 1 fun s rest => numberBody isNegative s = .ok (n, rest) := by
  intro s rest h
  replace h : numberBody isNegative s = .ok (n, rest) := h
  cases s with
  | nil => cases h
  | cons c s =>
    rw [numberBody_cons] at h
    split at h
    · next hzero =>
      cases hnext : digitNext s with
      | true => rw [hnext] at h; cases h
      | false =>
        rw [hnext, if_neg (by decide)] at h
        refine ((isLocal_digitNext false).then (isLocal_afterWhole isNegative 0 n)).behind [c]
          ⟨s, ⟨rfl, hnext⟩, h⟩ (Nat.le_refl _) ?_
        rintro x t - ⟨_, ⟨rfl, hx⟩, ht⟩
        rw [List.singleton_append, numberBody_cons, if_pos hzero, hx, if_neg (by decide)]
        exact ht
    · next hzero =>
      split at h
      · next hdigit =>
        -- Whether the digits exceed the limit is decided by the next one, which stays where it is.
        obtain ⟨⟨value, count, middle⟩, hw⟩ : ∃ p, digitsWithin wordLimit (digitValue c) 0 s = p := ⟨_, rfl⟩
        have hdigits := isLocal_digitsWithin wordLimit (digitValue c) 0 value count
        simp only [hw] at h
        cases hnext : digitNext middle with
        | true =>
          rw [hnext, if_pos rfl] at h
          have hrun := isLocal_run Text.isDigit (middle.takeWhile Text.isDigit)
          refine (hdigits.then ((isLocal_digitNext true).then (hrun.then (isLocal_fractionOr isNegative value _ n)))).behind
            [c] ⟨middle, hw, middle, ⟨rfl, hnext⟩, _, ⟨rfl, rfl⟩, h⟩ (Nat.le_refl _) ?_
          rintro x t - ⟨y, hx, _, ⟨rfl, hy⟩, z, ⟨htake, hdrop⟩, ht⟩
          simp only [List.singleton_append, numberBody_cons, hzero, hdigit, hx, hy, htake, dropDigits, hdrop, if_true,
            if_false, ht]
        | false =>
          rw [hnext, if_neg (by decide)] at h
          refine (hdigits.then ((isLocal_digitNext false).then (isLocal_afterWhole isNegative value n))).behind [c]
            ⟨middle, hw, middle, ⟨rfl, hnext⟩, h⟩ (Nat.le_refl _) ?_
          rintro x t - ⟨y, hx, _, ⟨rfl, hy⟩, ht⟩
          simp only [List.singleton_append, numberBody_cons, hzero, hdigit, hx, hy, Bool.false_eq_true, if_true,
            if_false, ht]
      · cases h

end ModuleScaffold.Json
