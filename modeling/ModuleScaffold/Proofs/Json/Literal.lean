import ModuleScaffold.Proofs.Json.Skip

/-! # Strings and numbers as a document writes them

Literals and numerals carry their grammar. Main statements: both are read the same way wherever they stand, and both
can be passed over, also where they cannot be read. -/

namespace ModuleScaffold.Json

open Passage

theorem toOption_eq_some_iff {ε α : Type} {r : Except ε α} {a : α} : r.toOption = some a ↔ r = .ok a := by
  cases r <;> simp [Except.toOption]

/-- A character of a class is none that lies outside of it. -/
theorem ne_of_holds {p : Char → Bool} {c : Char} (hc : p c = true) {d : Char} (hd : p d = false) : c ≠ d := by
  rintro rfl
  rw [hc] at hd
  cases hd

/-! ## Literals -/

/-- What may stand between the quotes of a string. -/
inductive IsLiteral : List Char → Prop
  | nil : IsLiteral []
  | plain {c : Char} {s : List Char} (hc : ¬c < ' ') (hq : c ≠ '"') (hb : c ≠ '\\') (h : IsLiteral s) :
    IsLiteral (c :: s)
  | short {e : Char} {s : List Char} (he : (shortEscape? e).isSome = true) (h : IsLiteral s) : IsLiteral ('\\' :: e :: s)
  | unit {a b c d : Char} {s : List Char} (hu : (codeUnit? a b c d).isSome = true) (h : IsLiteral s) :
    IsLiteral ('\\' :: 'u' :: a :: b :: c :: d :: s)

/-- Characters that stand for themselves between quotes. -/
def isPlain (c : Char) : Bool := !(c < ' ' || c == '"' || c == '\\')

theorem isLiteral_of_plain {s : List Char} (h : s.all isPlain = true) : IsLiteral s := by
  induction s with
  | nil => exact .nil
  | cons c s ih =>
    obtain ⟨hplain, hs⟩ : isPlain c = true ∧ s.all isPlain = true := by simpa only [List.all_cons, Bool.and_eq_true] using h
    obtain ⟨⟨hc, hq⟩, hb⟩ : (¬c < ' ' ∧ c ≠ '"') ∧ c ≠ '\\' := by simpa [isPlain] using hplain
    exact .plain hc hq hb (ih hs)

theorem stringBody_of_plain {s : List Char} (h : s.all isPlain = true) :
    stringBody (s ++ ['"']) = .ok (s, []) := by
  induction s with
  | nil =>
    rw [stringBody.eq_def]
    rfl
  | cons c s ih =>
    obtain ⟨hplain, hs⟩ : isPlain c = true ∧ s.all isPlain = true := by simpa only [List.all_cons, Bool.and_eq_true] using h
    obtain ⟨⟨hc, hq⟩, hb⟩ : (¬c < ' ' ∧ c ≠ '"') ∧ c ≠ '\\' := by simpa [isPlain] using hplain
    rw [stringBody.eq_def]
    simp [hc, hq, hb, ih hs, consTo_eq_ok_iff]

theorem skipString_literal {s : List Char} (h : IsLiteral s) (rest : List Char) :
    skipString (s ++ '"' :: rest) = .ok rest := by
  induction h with
  | nil =>
    rw [skipString.eq_def]
    rfl
  | plain hc hq hb _ ih =>
    rw [skipString.eq_def]
    simp [hc, hq, hb, ih]
  | @short e s he _ ih =>
    obtain ⟨x, hx⟩ := Option.isSome_iff_exists.mp he
    have hu : e ≠ 'u' := by
      rintro rfl
      cases hx
    simp [skipString, hx, ih]
  | unit hu _ ih =>
    obtain ⟨n, hn⟩ := Option.isSome_iff_exists.mp hu
    simp [skipString, hn, ih]

/-- What can be read as a string can be passed over as one. -/
theorem skipString_of_stringBody {s cs rest : List Char} (h : stringBody s = .ok (cs, rest)) : skipString s = .ok rest := by
  induction s using stringBody.induct generalizing cs with
  | case2 s =>
    rw [stringBody.eq_def] at h
    simp only [if_true, Except.ok.injEq, Prod.mk.injEq] at h
    rw [skipString.eq_def, ← h.2]
    rfl
  | case9 a₁ b₁ c₁ d₁ n hn ht hl a₂ b₂ c₂ d₂ s m hm htrailing _ ih =>
    have hbody : stringBody ('\\' :: 'u' :: a₁ :: b₁ :: c₁ :: d₁ :: '\\' :: 'u' :: a₂ :: b₂ :: c₂ :: d₂ :: s) =
      consTo (paired n m) (stringBody s) := by
      simp [stringBody, hn, ht, hl, hm, htrailing]
    rw [hbody, consTo_eq_ok_iff] at h
    obtain ⟨more, hmore, -⟩ := h
    simp [skipString, hn, hm, ih hmore]
  | case14 a b c d s n hn ht hl _ ih =>
    have hbody : stringBody ('\\' :: 'u' :: a :: b :: c :: d :: s) = consTo (Char.ofNat n) (stringBody s) := by
      simp [stringBody, hn, ht, hl]
    rw [hbody, consTo_eq_ok_iff] at h
    obtain ⟨more, hmore, -⟩ := h
    simp [skipString, hn, ih hmore]
  | case16 e s he x hx _ ih =>
    have hbody : stringBody ('\\' :: e :: s) = consTo x (stringBody s) := by simp [stringBody, hx]
    rw [hbody, consTo_eq_ok_iff] at h
    obtain ⟨more, hmore, -⟩ := h
    simp [skipString, hx, ih hmore]
  | case19 c s hquote hbackslash hcontrol ih =>
    rw [stringBody.eq_def] at h
    simp only [hquote, hbackslash, hcontrol, if_false, consTo_eq_ok_iff] at h
    obtain ⟨more, hmore, -⟩ := h
    rw [skipString.eq_def]
    simp [hquote, hbackslash, hcontrol, ih hmore]
  | case18 c s hquote hbackslash hcontrol =>
    rw [stringBody.eq_def] at h
    simp [*, stop] at h
  | _ => simp_all [stringBody, stop, badUnit_ne_ok]

/-- A string of a document, without its quotes. -/
structure Literal where
  chars : List Char
  isLiteral : IsLiteral chars

namespace Literal

def quoted (l : Literal) : List Char := '"' :: (l.chars ++ ['"'])

/-- The text that a literal stands for; there is none where half of a pair of code units stands alone. -/
def value? (l : Literal) : Option String := (stringBody (l.chars ++ ['"'])).toOption.map fun p => String.ofList p.1

/-- A string of characters that stand for themselves. -/
def ofPlain (s : String) (h : s.toList.all isPlain = true) : Literal := ⟨s.toList, isLiteral_of_plain h⟩

theorem value?_ofPlain (s : String) (h : s.toList.all isPlain = true) :
    (ofPlain s h).value? = some s := by
  have hbody : stringBody ((ofPlain s h).chars ++ ['"']) = .ok (s.toList, []) := stringBody_of_plain h
  rw [value?, hbody]
  exact congrArg some String.ofList_toList

theorem skipString (l : Literal) (rest : List Char) : Json.skipString (l.chars ++ '"' :: rest) = .ok rest :=
  skipString_literal l.isLiteral rest

theorem stringBody_eq_ok_iff (l : Literal) {cs rest tail : List Char} :
    stringBody (l.chars ++ '"' :: rest) = .ok (cs, tail) ↔ tail = rest ∧ l.value? = some (String.ofList cs) := by
  -- Where the literal ends is known from passing over it, and what it says is the same in front of any text.
  have hend {cs rest tail : List Char} (h : stringBody (l.chars ++ '"' :: rest) = .ok (cs, tail)) :
      tail = rest ∧ ∀ t, stringBody (l.chars ++ '"' :: t) = .ok (cs, t) := by
    obtain rfl : tail = rest := by simpa [skipString_of_stringBody h] using l.skipString rest
    obtain ⟨taken, -, htaken, hagain⟩ := isClosed_stringBody cs h
    rw [← List.singleton_append, ← List.append_assoc] at htaken
    obtain rfl := List.append_cancel_right htaken
    exact ⟨rfl, fun t => by simpa using hagain t⟩
  constructor
  · intro h
    obtain ⟨htail, hagain⟩ := hend h
    refine ⟨htail, ?_⟩
    rw [value?, hagain []]
    rfl
  · rintro ⟨rfl, hvalue⟩
    obtain ⟨⟨ds, more⟩, hds, heq⟩ := Option.map_eq_some_iff.mp hvalue
    obtain rfl : ds = cs := String.ofList_injective heq
    exact (hend (toOption_eq_some_iff.mp hds)).2 tail

/-- The same as readers use it, which keep the text only. -/
theorem exists_stringBody_iff (l : Literal) {rest tail : List Char} {text : String} :
    (∃ cs, stringBody (l.chars ++ '"' :: rest) = .ok (cs, tail) ∧ String.ofList cs = text) ↔
      tail = rest ∧ l.value? = some text := by
  simp only [stringBody_eq_ok_iff]
  constructor
  · rintro ⟨cs, ⟨htail, hvalue⟩, rfl⟩
    exact ⟨htail, hvalue⟩
  · rintro ⟨htail, hvalue⟩
    exact ⟨text.toList, ⟨htail, by rw [String.ofList_toList, hvalue]⟩, String.ofList_toList⟩

end Literal

/-! ## Numerals -/

/-- Some digits. -/
def IsDigits (ds : List Char) : Prop := ds ≠ [] ∧ ∀ c ∈ ds, Text.isDigit c = true

inductive IsInteger : List Char → Prop
  | zero : IsInteger ['0']
  | digits {c : Char} {ds : List Char} (hz : c ≠ '0') (h : IsDigits (c :: ds)) : IsInteger (c :: ds)

inductive IsFraction : List Char → Prop
  | absent : IsFraction []
  | present {ds : List Char} (h : IsDigits ds) : IsFraction ('.' :: ds)

inductive IsExponent : List Char → Prop
  | absent : IsExponent []
  | present {mark : Char} {sign ds : List Char} (hm : mark = 'e' ∨ mark = 'E')
    (hs : sign = [] ∨ sign = ['+'] ∨ sign = ['-']) (h : IsDigits ds) : IsExponent (mark :: (sign ++ ds))

/-- A number of a document. -/
structure Numeral where
  isNegative : Bool
  whole : List Char
  fraction : List Char
  exponent : List Char
  isInteger : IsInteger whole
  isFraction : IsFraction fraction
  isExponent : IsExponent exponent

/-- No character of a number is next. -/
structure Ends (s : List Char) : Prop where
  digit : digitNext s = false
  point : s.head? ≠ some '.'
  lower : s.head? ≠ some 'e'
  upper : s.head? ≠ some 'E'

theorem Ends.nil : Ends [] := ⟨rfl, by simp, by simp, by simp⟩

theorem digitNext_append {ds : List Char} (h : IsDigits ds) (tail : List Char) : digitNext (ds ++ tail) = true := by
  obtain ⟨hne, hall⟩ := h
  cases ds with
  | nil => exact (hne rfl).elim
  | cons c ds => exact hall c List.mem_cons_self

theorem dropDigits_append {ds tail : List Char} (h : ∀ c ∈ ds, Text.isDigit c = true) (ht : digitNext tail = false) :
    dropDigits (ds ++ tail) = tail := by
  rw [dropDigits, List.dropWhile_append_of_pos h]
  cases tail with
  | nil => rfl
  | cons c tail => exact List.dropWhile_cons_of_neg (by simpa [digitNext] using ht)

theorem takeDigits_append {ds tail : List Char} (h : ∀ c ∈ ds, Text.isDigit c = true) (ht : digitNext tail = false) :
    (ds ++ tail).takeWhile Text.isDigit = ds := by
  rw [List.takeWhile_append_of_pos h]
  cases tail with
  | nil => simp
  | cons c tail => rw [List.takeWhile_cons_of_neg (by simpa [digitNext] using ht), List.append_nil]

/-- Of a run of digits some are taken, and whether all are is not up to what stands behind. -/
theorem digitsWithin_append (limit value count : Nat) {ds : List Char} (h : ∀ c ∈ ds, Text.isDigit c = true) :
    ∃ value' count' left, (∀ c ∈ left, Text.isDigit c = true) ∧ (left = [] → count' = count + ds.length) ∧
      ∀ tail, digitNext tail = false → digitsWithin limit value count (ds ++ tail) = (value', count', left ++ tail) := by
  induction ds generalizing value count with
  | nil =>
    refine ⟨value, count, [], by simp, fun _ => rfl, ?_⟩
    intro tail ht
    cases tail with
    | nil => rfl
    | cons c tail =>
      have hc : Text.isDigit c = false := ht
      simp [digitsWithin, hc]
  | cons c ds ih =>
    obtain ⟨hc, hds⟩ := List.forall_mem_cons.mp h
    by_cases hfits : value * 10 + digitValue c ≤ limit
    · obtain ⟨value', count', left, hleft, hall, hwithin⟩ := ih (value * 10 + digitValue c) (count + 1) hds
      refine ⟨value', count', left, hleft, ?_, ?_⟩
      · intro hnil
        rw [hall hnil, List.length_cons]
        omega
      · intro tail ht
        rw [List.cons_append, digitsWithin, if_pos (by simp [hc, hfits]), hwithin tail ht]
    · refine ⟨value, count, c :: ds, h, by simp, ?_⟩
      intro tail _
      rw [List.cons_append, digitsWithin, if_neg (by simp [hc, hfits])]

theorem IsExponent.ends {s rest : List Char} (h : IsExponent s) (hr : Ends rest) :
    digitNext (s ++ rest) = false ∧ (s ++ rest).head? ≠ some '.' := by
  cases h with
  | absent => exact ⟨hr.digit, hr.point⟩
  | present hm _ _ => rcases hm with rfl | rfl <;> exact ⟨rfl, by simp⟩

theorem IsFraction.ends {s exponent rest : List Char} (h : IsFraction s) (he : IsExponent exponent) (hr : Ends rest) :
    digitNext (s ++ (exponent ++ rest)) = false := by
  cases h with
  | absent => exact (he.ends hr).1
  | present _ => rfl

/-! ### Numbers that are read -/

/-- What is read from a front does not depend on what stands behind it. -/
def Settles (read : List Char → Except Fault (Number × List Char)) (s : List Char) : Prop :=
  ∃ n : Option Number, ∀ rest, Ends rest → (read (s ++ rest)).toOption = n.map (·, rest)

theorem settles_decimal (isNegative : Bool) (significand : Nat) (exponent : Int) :
    Settles (decimal isNegative significand exponent) [] := by
  refine ⟨(Number.toFloat? isNegative significand.toUInt64 exponent).map fun _ =>
    .decimal isNegative significand.toUInt64 exponent, fun rest _ => ?_⟩
  rw [List.nil_append, decimal]
  cases Number.toFloat? isNegative significand.toUInt64 exponent <;> rfl

theorem settles_exponentDigits (isNegative : Bool) (significand : Nat) (before : Int) (down : Bool) {ds : List Char}
    (h : IsDigits ds) : Settles (exponentDigits isNegative significand before down) ds := by
  obtain ⟨hne, hall⟩ := h
  obtain ⟨c, ds, rfl⟩ := List.exists_cons_of_ne_nil hne
  obtain ⟨hc, hds⟩ := List.forall_mem_cons.mp hall
  obtain ⟨value, count, left, hleft, -, hwithin⟩ := digitsWithin_append exponentLimit (digitValue c) 0 hds
  cases left with
  | nil =>
    obtain ⟨n, hn⟩ := settles_decimal isNegative significand (if down then before - value else before + value)
    refine ⟨n, fun rest hr => ?_⟩
    rw [← hn rest hr]
    simp [exponentDigits, hc, hwithin rest hr.digit, hr.digit]
  | cons d left =>
    refine ⟨if significand ≠ 0 && !down then none else some (.decimal isNegative 0 0), fun rest hr => ?_⟩
    have hnext : digitNext (d :: left ++ rest) = true := hleft d List.mem_cons_self
    simp only [exponentDigits, List.cons_append, hc, if_true, hwithin rest hr.digit]
    simp only [List.cons_append] at hnext
    rw [hnext, if_pos rfl, ← List.cons_append, dropDigits_append hleft hr.digit]
    split <;> rfl

theorem settles_exponentPart (isNegative : Bool) (significand : Nat) (before : Int) {sign ds : List Char}
    (hs : sign = [] ∨ sign = ['+'] ∨ sign = ['-']) (h : IsDigits ds) :
    Settles (exponentPart isNegative significand before) (sign ++ ds) := by
  rcases hs with rfl | rfl | rfl
  · obtain ⟨n, hn⟩ := settles_exponentDigits isNegative significand before false h
    refine ⟨n, fun rest hr => ?_⟩
    have hfirst := digitNext_append h rest
    rw [List.nil_append, exponentPart_unsigned _ _ _ ?_ ?_, hn rest hr]
    all_goals
      intro hhead
      obtain ⟨tail, htail⟩ := List.head?_eq_some_iff.mp hhead
      rw [htail] at hfirst
      cases hfirst
  · exact settles_exponentDigits isNegative significand before false h
  · exact settles_exponentDigits isNegative significand before true h

theorem settles_exponentOr (isNegative : Bool) (significand : Nat) (before : Int) {s : List Char} (h : IsExponent s) :
    Settles (exponentOr isNegative significand before) s := by
  cases h with
  | absent =>
    obtain ⟨n, hn⟩ := settles_decimal isNegative significand before
    refine ⟨n, fun rest hr => ?_⟩
    rw [← hn rest hr, List.nil_append, exponentOr_plain _ _ _ hr.lower hr.upper]
  | present hm hs h => rcases hm with rfl | rfl <;> exact settles_exponentPart isNegative significand before hs h

theorem settles_fractionPart (isNegative : Bool) (significand : Nat) (before : Int) {ds s : List Char}
    (h : IsDigits ds) (hs : IsExponent s) : Settles (fractionPart isNegative significand before) (ds ++ s) := by
  obtain ⟨value, count, left, hleft, hall, hwithin⟩ := digitsWithin_append wordLimit significand 0 h.2
  obtain ⟨n, hn⟩ := settles_exponentOr isNegative value (before - count) hs
  refine ⟨n, fun rest hr => ?_⟩
  obtain ⟨hbehind, -⟩ := hs.ends hr
  rw [← hn rest hr, List.append_assoc]
  simp only [fractionPart, hwithin _ hbehind]
  cases left with
  | nil =>
    have hcount : count ≠ 0 := by
      have hlength := List.length_pos_iff.mpr h.1
      have hall := hall rfl
      omega
    rw [List.nil_append, hbehind, if_neg (by decide), if_neg hcount]
  | cons d left =>
    have hnext : digitNext (d :: left ++ (s ++ rest)) = true := hleft d List.mem_cons_self
    rw [hnext, if_pos rfl, dropDigits_append hleft hbehind]

/-- What follows the digits of a whole part, whether or not they are kept exactly. -/
theorem settles_afterWhole (isNegative : Bool) (value : Nat) {fraction s : List Char} (hf : IsFraction fraction)
    (hs : IsExponent s) : Settles (afterWhole isNegative value) (fraction ++ s) := by
  cases hf with
  | present h => exact settles_fractionPart isNegative value 0 h hs
  | absent =>
    cases hs with
    | absent =>
      refine ⟨some (wholeNumber isNegative value), fun rest hr => ?_⟩
      rw [List.nil_append, List.nil_append, afterWhole_plain _ _ hr.point hr.lower hr.upper]
      rfl
    | present hm hs h => rcases hm with rfl | rfl <;> exact settles_exponentPart isNegative value 0 hs h

theorem settles_fractionOr (isNegative : Bool) (value : Nat) (further : Int) {fraction s : List Char}
    (hf : IsFraction fraction) (hs : IsExponent s) : Settles (fractionOr isNegative value further) (fraction ++ s) := by
  cases hf with
  | present h => exact settles_fractionPart isNegative value further h hs
  | absent =>
    obtain ⟨n, hn⟩ := settles_exponentOr isNegative value further hs
    refine ⟨n, fun rest hr => ?_⟩
    rw [← hn rest hr, List.nil_append, fractionOr_plain _ _ _ (hs.ends hr).2]

theorem settles_numberBody (isNegative : Bool) {whole fraction s : List Char} (hw : IsInteger whole)
    (hf : IsFraction fraction) (hs : IsExponent s) : Settles (numberBody isNegative) (whole ++ (fraction ++ s)) := by
  cases hw with
  | zero =>
    obtain ⟨n, hn⟩ := settles_afterWhole isNegative 0 hf hs
    refine ⟨n, fun rest hr => ?_⟩
    have hbehind := hf.ends hs hr
    rw [← List.append_assoc] at hbehind
    rw [← hn rest hr, List.append_assoc, List.singleton_append, numberBody_cons, if_pos rfl, hbehind, if_neg (by decide)]
  | @digits c ds hz h =>
    obtain ⟨hc, hds⟩ := List.forall_mem_cons.mp h.2
    obtain ⟨value, count, left, hleft, -, hwithin⟩ := digitsWithin_append wordLimit (digitValue c) 0 hds
    cases left with
    | nil =>
      obtain ⟨n, hn⟩ := settles_afterWhole isNegative value hf hs
      refine ⟨n, fun rest hr => ?_⟩
      have hbehind := hf.ends hs hr
      rw [← List.append_assoc] at hbehind
      rw [← hn rest hr, List.append_assoc, List.cons_append, numberBody_cons, if_neg hz, if_pos hc,
        hwithin _ hbehind, List.nil_append, hbehind, if_neg (by decide)]
    | cons d left =>
      obtain ⟨n, hn⟩ := settles_fractionOr isNegative value ((d :: left).length : Nat) hf hs
      refine ⟨n, fun rest hr => ?_⟩
      have hbehind := hf.ends hs hr
      rw [← List.append_assoc] at hbehind
      have hnext (tail : List Char) : digitNext (d :: left ++ tail) = true := hleft d List.mem_cons_self
      rw [← hn rest hr, List.append_assoc, List.cons_append, numberBody_cons, if_neg hz, if_pos hc,
        hwithin _ hbehind, hnext, if_pos rfl, takeDigits_append hleft hbehind, dropDigits_append hleft hbehind]

/-! ### Numbers that are passed over -/

theorem skipDigits_append {ds rest : List Char} (h : IsDigits ds) (hr : digitNext rest = false) :
    skipDigits (ds ++ rest) = .ok rest := by
  obtain ⟨hne, hall⟩ := h
  obtain ⟨c, ds, rfl⟩ := List.exists_cons_of_ne_nil hne
  obtain ⟨hc, hds⟩ := List.forall_mem_cons.mp hall
  rw [List.cons_append, skipDigits, if_pos hc, dropDigits_append hds hr]

theorem skipExponentOr_append {s rest : List Char} (h : IsExponent s) (hr : Ends rest) :
    skipExponentOr (s ++ rest) = .ok rest := by
  cases h with
  | absent => exact skipExponentOr_plain hr.lower hr.upper
  | @present mark sign ds hm hs h =>
    have hexponent : skipExponent (sign ++ ds ++ rest) = .ok rest := by
      rcases hs with rfl | rfl | rfl
      · have hfirst := digitNext_append h rest
        rw [List.nil_append, skipExponent_unsigned ?_ ?_, skipDigits_append h hr.digit]
        all_goals
          intro hhead
          obtain ⟨tail, htail⟩ := List.head?_eq_some_iff.mp hhead
          rw [htail] at hfirst
          cases hfirst
      · exact skipDigits_append h hr.digit
      · exact skipDigits_append h hr.digit
    rcases hm with rfl | rfl <;> exact hexponent

theorem skipAfterWhole_append {fraction s rest : List Char} (hf : IsFraction fraction) (hs : IsExponent s)
    (hr : Ends rest) : skipAfterWhole (fraction ++ (s ++ rest)) = .ok rest := by
  obtain ⟨hdigit, hpoint⟩ := hs.ends hr
  cases hf with
  | absent => rw [List.nil_append, skipAfterWhole_plain hpoint, skipExponentOr_append hs hr]
  | present h =>
    rw [List.cons_append, skipAfterWhole_point, digitNext_append h, if_pos rfl, dropDigits_append h.2 hdigit,
      skipExponentOr_append hs hr]

theorem skipNumber_append {whole fraction s rest : List Char} (hw : IsInteger whole) (hf : IsFraction fraction)
    (hs : IsExponent s) (hr : Ends rest) : skipNumber (whole ++ (fraction ++ (s ++ rest))) = .ok rest := by
  have hbehind := hf.ends hs hr
  cases hw with
  | zero =>
    rw [List.singleton_append, skipNumber, if_pos rfl, hbehind, if_neg (by decide), skipAfterWhole_append hf hs hr]
  | @digits c ds hz h =>
    obtain ⟨hc, hds⟩ := List.forall_mem_cons.mp h.2
    rw [List.cons_append, skipNumber, if_neg hz, if_pos hc, dropDigits_append hds hbehind,
      skipAfterWhole_append hf hs hr]

/-! ### Numerals as they stand -/

namespace Numeral

def unsigned (n : Numeral) : List Char := n.whole ++ (n.fraction ++ n.exponent)

def chars (n : Numeral) : List Char := if n.isNegative then '-' :: n.unsigned else n.unsigned

theorem unsigned_front (n : Numeral) : ∃ c tail, n.unsigned = c :: tail ∧ Text.isDigit c = true := by
  have hw := n.isInteger
  rw [unsigned]
  cases hwhole : n.whole with
  | nil =>
    rw [hwhole] at hw
    cases hw
  | cons c tail =>
    rw [hwhole] at hw
    refine ⟨c, _, rfl, ?_⟩
    cases hw with
    | zero => decide
    | digits _ h => exact h.2 c List.mem_cons_self

theorem front (n : Numeral) : ∃ c tail, n.chars = c :: tail ∧ (c == '-' || Text.isDigit c) = true := by
  obtain ⟨c, tail, hs, hc⟩ := n.unsigned_front
  rw [chars]
  split
  · exact ⟨_, _, rfl, rfl⟩
  · exact ⟨c, tail, hs, by simp [hc]⟩

/-- The number that a numeral stands for; there is none beyond the range of numbers. -/
def value? (n : Numeral) : Option Number := (numberBody n.isNegative n.unsigned).toOption.map (·.1)

theorem skipNumber (n : Numeral) {rest : List Char} (hr : Ends rest) : Json.skipNumber (n.unsigned ++ rest) = .ok rest := by
  rw [unsigned, List.append_assoc, List.append_assoc]
  exact skipNumber_append n.isInteger n.isFraction n.isExponent hr

theorem numberBody_eq_ok_iff (n : Numeral) {rest tail : List Char} {m : Number} (hr : Ends rest) :
    numberBody n.isNegative (n.unsigned ++ rest) = .ok (m, tail) ↔ tail = rest ∧ n.value? = some m := by
  obtain ⟨k, hk⟩ := settles_numberBody n.isNegative n.isInteger n.isFraction n.isExponent
  have hvalue : n.value? = k := by
    have hnil := hk [] .nil
    rw [List.append_nil] at hnil
    rw [value?, unsigned, hnil]
    cases k <;> rfl
  rw [← toOption_eq_some_iff, hvalue, unsigned, hk rest hr]
  cases k <;> simp [and_comm, eq_comm]

end Numeral

end ModuleScaffold.Json
