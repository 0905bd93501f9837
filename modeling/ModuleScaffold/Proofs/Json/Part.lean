import ModuleScaffold.Proofs.Json.Lexeme

/-! # Parts and single values, wherever they stand

Main statement: what goes before an element, before the value of a member, and what ends a list or an object is read
the same way whatever stands behind it, and so are texts, flags, words and `null`. -/

namespace ModuleScaffold.Json

open Passage

theorem map_eq_ok_iff {ε α β : Type} {r : Except ε α} {f : α → β} {b : β} :
    r.map f = .ok b ↔ ∃ a, r = .ok a ∧ f a = b := by
  cases r <;> simp [Except.map]

/-- Results that go with what is left of a text. -/
theorem mapFirst_eq_ok_iff {α β : Type} {f : α → β} {r : Except Fault (α × List Char)} {b : β} {rest : List Char} :
    (r.map fun p => (f p.1, p.2)) = .ok (b, rest) ↔ ∃ a, f a = b ∧ r = .ok (a, rest) := by
  rcases r with e | ⟨a, tail⟩
  · simp [Except.map]
  · simp only [Except.map, Except.ok.injEq, Prod.mk.injEq]
    exact ⟨fun ⟨ha, ht⟩ => ⟨a, ha, rfl, ht⟩, fun ⟨_, ha, he, ht⟩ => ⟨he ▸ ha, ht⟩⟩

theorem inside_eq_ok_iff {α : Type} {step : Step} {r : Except Fault α} {a : α} : inside step r = .ok a ↔ r = .ok a := by
  cases r <;> simp [inside]

section Parts

variable {s rest : List Char} {first : Bool} {key : String}

/-! ## Parts of lists and objects -/

theorem nextElement_eq_end_iff : nextElement first s = .ok (none, rest) ↔ skipSpaces s = ']' :: rest := by
  unfold nextElement
  cases skipSpaces s with
  | nil => simp [stopAt, stop]
  | cons c tail =>
    by_cases hend : c = ']'
    · simp [hend]
    simp only [List.cons.injEq, hend, if_false, false_and, iff_false]
    cases first with
    | true => simp
    | false =>
      by_cases hcomma : c = ','
      · simp only [hcomma, Bool.false_eq_true, if_false, if_true]
        split <;> simp [stopAt, stop]
      · simp [hcomma, stopAt, stop]

/-- An element begins where a text neither ends nor closes the list. -/
def BeginsElement (s : List Char) : Prop := s.head? ≠ none ∧ s.head? ≠ some ']'

theorem nextElement_eq_first_iff :
    nextElement true s = .ok (some (), rest) ↔ skipSpaces s = rest ∧ BeginsElement rest := by
  unfold nextElement BeginsElement
  cases skipSpaces s with
  | nil => simp +contextual [stopAt, stop, eq_comm]
  | cons c tail =>
    by_cases hend : c = ']'
    · simp +contextual [hend, eq_comm]
    simp only [hend, if_false, if_true, Except.ok.injEq, Prod.mk.injEq, true_and]
    constructor
    · rintro rfl
      exact ⟨rfl, by simp, by simpa using hend⟩
    · exact fun h => h.1

theorem nextElement_eq_next_iff : nextElement false s = .ok (some (), rest) ↔
    ∃ tail, skipSpaces s = ',' :: tail ∧ skipSpaces tail = rest ∧ BeginsElement rest := by
  unfold nextElement BeginsElement
  cases skipSpaces s with
  | nil => simp [stopAt, stop]
  | cons c tail =>
    by_cases hend : c = ']'
    · simp [hend]
    by_cases hcomma : c = ','
    · subst hcomma
      simp only [List.cons.injEq, true_and, exists_eq_left']
      cases htail : skipSpaces tail with
      | nil => simp +contextual [stopAt, stop, eq_comm]
      | cons d more =>
        by_cases hd : d = ']'
        · simp +contextual [hd, stopAt, stop, eq_comm]
        · constructor
          · intro h
            obtain rfl : d :: more = rest := by simpa [hd] using h
            exact ⟨rfl, by simp, by simpa using hd⟩
          · rintro ⟨rfl, -⟩
            simp [hd]
    · simp [hend, hcomma, stopAt, stop]

theorem isClosed_endOfElements (first : Bool) : IsClosed 1 fun s rest => nextElement first s = .ok (none, rest) := by
  intro s rest h
  exact (isClosed_spaced ']').via (nextElement_eq_end_iff.mp h) (Nat.le_refl _) fun _ _ => nextElement_eq_end_iff.mpr

theorem isLocal_beginsElement : IsLocal 0 fun s rest => rest = s ∧ BeginsElement s :=
  isLocal_stay fun ht hs => by rwa [BeginsElement, ht]

theorem isLocal_nextElement (first : Bool) : IsLocal 0 fun s rest => nextElement first s = .ok (some (), rest) := by
  intro s rest h
  cases first with
  | true =>
    obtain ⟨hspaces, hbegins⟩ := nextElement_eq_first_iff.mp h
    refine (isLocal_skipSpaces.then isLocal_beginsElement).via ⟨rest, hspaces, rfl, hbegins⟩ (Nat.le_refl _) ?_
    rintro x t ⟨_, hx, rfl, ht⟩
    exact nextElement_eq_first_iff.mpr ⟨hx, ht⟩
  | false =>
    obtain ⟨tail, hcomma, hspaces, hbegins⟩ := nextElement_eq_next_iff.mp h
    refine ((isClosed_spaced ',').isLocal.then (isLocal_skipSpaces.then isLocal_beginsElement)).via
      ⟨tail, hcomma, rest, hspaces, rfl, hbegins⟩ (Nat.zero_le _) ?_
    rintro x t ⟨tail, hx, _, htail, rfl, ht⟩
    exact nextElement_eq_next_iff.mpr ⟨tail, hx, htail, ht⟩

theorem keyBody_eq_ok_iff : keyBody s = .ok (some key, rest) ↔
    ∃ cs, stringBody s = .ok (cs, rest) ∧ String.ofList cs = key := by
  cases h : stringBody s with
  | error f => simp [keyBody, h]
  | ok p =>
    obtain ⟨cs, tail⟩ := p
    simp [keyBody, h, and_assoc, and_comm]

theorem nextKey_eq_end_iff : nextKey first s = .ok (none, rest) ↔ skipSpaces s = '\x7d' :: rest := by
  have hkey (s : List Char) : keyBody s ≠ .ok (none, rest) := by
    unfold keyBody
    split <;> simp
  rw [nextKey, inside_eq_ok_iff]
  cases skipSpaces s with
  | nil => simp [stopAt, stop]
  | cons c tail =>
    by_cases hend : c = '\x7d'
    · simp [hend]
    simp only [List.cons.injEq, hend, if_false, false_and, iff_false]
    cases first with
    | true => by_cases hquote : c = '"' <;> simp [hquote, hkey, stopAt, stop]
    | false =>
      by_cases hcomma : c = ','
      · simp only [hcomma, Bool.false_eq_true, if_false, if_true]
        cases skipSpaces tail with
        | nil => simp [stopAt, stop]
        | cons d more =>
          by_cases hquote : d = '"'
          · simp [hquote, hkey]
          by_cases hd : d = '\x7d' <;> simp [hquote, hd, stopAt, stop]
      · simp [hcomma, stopAt, stop]

theorem nextKey_eq_first_iff : nextKey true s = .ok (some key, rest) ↔
    ∃ opened, skipSpaces s = '"' :: opened ∧ ∃ cs, stringBody opened = .ok (cs, rest) ∧ String.ofList cs = key := by
  rw [nextKey, inside_eq_ok_iff]
  cases skipSpaces s with
  | nil => simp [stopAt, stop]
  | cons c tail =>
    by_cases hend : c = '\x7d'
    · simp [hend]
    by_cases hquote : c = '"' <;> simp [hend, hquote, keyBody_eq_ok_iff, stopAt, stop]

theorem nextKey_eq_next_iff : nextKey false s = .ok (some key, rest) ↔
    ∃ tail, skipSpaces s = ',' :: tail ∧
      ∃ opened, skipSpaces tail = '"' :: opened ∧ ∃ cs, stringBody opened = .ok (cs, rest) ∧ String.ofList cs = key := by
  rw [nextKey, inside_eq_ok_iff]
  cases skipSpaces s with
  | nil => simp [stopAt, stop]
  | cons c tail =>
    by_cases hend : c = '\x7d'
    · simp [hend]
    by_cases hcomma : c = ','
    · subst hcomma
      cases htail : skipSpaces tail with
      | nil => simp [htail, stopAt, stop]
      | cons d more =>
        by_cases hquote : d = '"'
        · simp [htail, hquote, keyBody_eq_ok_iff]
        by_cases hd : d = '\x7d' <;> simp [htail, hquote, hd, stopAt, stop]
    · simp [hend, hcomma, stopAt, stop]

theorem isClosed_endOfMembers (first : Bool) : IsClosed 1 fun s rest => nextKey first s = .ok (none, rest) := by
  intro s rest h
  exact (isClosed_spaced '\x7d').via (nextKey_eq_end_iff.mp h) (Nat.le_refl _) fun _ _ => nextKey_eq_end_iff.mpr

/-- A quoted key behind blanks. -/
theorem isClosed_quoted (key : String) : IsClosed 2 fun s rest => ∃ opened, skipSpaces s = '"' :: opened ∧
    ∃ cs, stringBody opened = .ok (cs, rest) ∧ String.ofList cs = key := by
  rintro s rest ⟨opened, hopened, cs, hcs, hkey⟩
  refine ((isClosed_spaced '"').isLocal.thenClosed (isClosed_stringBody cs)).via ⟨opened, hopened, hcs⟩ (Nat.le_refl _) ?_
  exact fun _ _ ⟨opened, hopened, hcs⟩ => ⟨opened, hopened, cs, hcs, hkey⟩

theorem isClosed_nextKey (first : Bool) (key : String) :
    IsClosed 1 fun s rest => nextKey first s = .ok (some key, rest) := by
  intro s rest h
  cases first with
  | true =>
    exact (isClosed_quoted key).via (nextKey_eq_first_iff.mp h) (by omega) fun _ _ => nextKey_eq_first_iff.mpr
  | false =>
    have hparts := (isClosed_spaced ',').isLocal.thenClosed (isClosed_quoted key)
    exact hparts.via (nextKey_eq_next_iff.mp h) (by omega) fun _ _ => nextKey_eq_next_iff.mpr

theorem expectColon_eq_ok_iff : expectColon s = .ok rest ↔ skipSpaces s = ':' :: rest := by
  unfold expectColon
  cases skipSpaces s with
  | nil => simp [stopAt, stop]
  | cons c tail => by_cases hc : c = ':' <;> simp [hc, stopAt, stop]

theorem isClosed_expectColon : IsClosed 1 fun s rest => expectColon s = .ok rest := by
  intro s rest h
  exact (isClosed_spaced ':').via (expectColon_eq_ok_iff.mp h) (Nat.le_refl _) fun _ _ => expectColon_eq_ok_iff.mpr

theorem endList_eq_ok_iff : endList s = .ok rest ↔ skipSpaces s = ']' :: rest := by
  unfold endList
  cases skipSpaces s with
  | nil => simp [stopAt, stop]
  | cons c tail =>
    by_cases hend : c = ']'
    · simp [hend]
    by_cases hcomma : c = ','
    · subst hcomma
      simp only [List.cons.injEq, hend, false_and, iff_false]
      split <;> simp [stopAt, stop]
    · simp [hend, hcomma, stopAt, stop]

theorem isClosed_endList : IsClosed 1 fun s rest => endList s = .ok rest := by
  intro s rest h
  exact (isClosed_spaced ']').via (endList_eq_ok_iff.mp h) (Nat.le_refl _) fun _ _ => endList_eq_ok_iff.mpr

end Parts

/-! ## Single values -/

theorem isLocal_map {α β : Type} {n : Nat} {read : Reader α} {f : α → β} {b : β}
    (h : ∀ a, IsLocal n fun s rest => read s = .ok (a, rest)) :
    IsLocal n fun s rest => (read s).map (fun (a, rest) => (f a, rest)) = .ok (b, rest) := by
  intro s rest hr
  obtain ⟨a, ha, hread⟩ := mapFirst_eq_ok_iff.mp hr
  exact (h a).via hread (Nat.le_refl _) fun _ _ hx => mapFirst_eq_ok_iff.mpr ⟨a, ha, hx⟩

theorem isLocal_mapWord {β : Type} (word : List Char) (a b : β) :
    IsLocal 0 fun s rest => (expectWord word s).map (fun rest => (a, rest)) = .ok (b, rest) := by
  intro s rest hr
  obtain ⟨tail, htail, hb⟩ := map_eq_ok_iff.mp hr
  obtain ⟨hfirst, rfl⟩ := Prod.mk.inj hb
  exact (isClosed_expectWord word).isLocal.via htail (Nat.zero_le _) fun x t hx =>
    map_eq_ok_iff.mpr ⟨t, hx, Prod.ext hfirst rfl⟩

theorem mismatch_ne_ok {α : Type} (wanted : String) (c : Char) (s : List Char) (a : α) : mismatch wanted c s ≠ .ok a := by
  have hword (found : Found) (letters : List Char) : wordMismatch wanted found letters s ≠ .ok a := by
    unfold wordMismatch
    split <;> simp [stop]
  have hnumber (isNegative : Bool) (s : List Char) : numberMismatch wanted isNegative s ≠ .ok a := by
    unfold numberMismatch
    split <;> simp [stop]
  unfold mismatch
  repeat' split
  all_goals first | exact hword _ _ | exact hnumber _ _ | simp [stopAt, stop]

section Values

variable {s rest : List Char} {j : Json}

theorem readText_eq_ok_iff {wanted text : String} : readText wanted s = .ok (text, rest) ↔
    ∃ opened, skipSpaces s = '"' :: opened ∧ ∃ cs, stringBody opened = .ok (cs, rest) ∧ String.ofList cs = text := by
  unfold readText
  cases skipSpaces s with
  | nil => simp [stopAt, stop]
  | cons c tail =>
    by_cases hquote : c = '"'
    · cases h : stringBody tail with
      | error f => simp [hquote, h]
      | ok p =>
        obtain ⟨cs, tail⟩ := p
        simp [hquote, h, and_assoc, and_comm]
    · simp [hquote, mismatch_ne_ok]

theorem isClosed_readText (wanted text : String) :
    IsClosed 1 fun s rest => readText wanted s = .ok (text, rest) := by
  intro s rest h
  exact (isClosed_quoted text).via (readText_eq_ok_iff.mp h) (by omega) fun _ _ => readText_eq_ok_iff.mpr

theorem readFlag_eq_ok_iff : readFlag s = .ok (j, rest) ↔
    (∃ tail, skipSpaces s = 't' :: tail ∧ expectWord ['r', 'u', 'e'] tail = .ok rest ∧ .bool true = j) ∨
    ∃ tail, skipSpaces s = 'f' :: tail ∧ expectWord ['a', 'l', 's', 'e'] tail = .ok rest ∧ .bool false = j := by
  unfold readFlag
  cases skipSpaces s with
  | nil => simp [stopAt, stop]
  | cons c tail =>
    by_cases ht : c = 't'
    · simp [ht, map_eq_ok_iff, and_assoc, and_comm]
    by_cases hf : c = 'f'
    · simp [hf, map_eq_ok_iff, and_assoc, and_comm]
    · simp [ht, hf, mismatch_ne_ok]

theorem isClosed_readFlag (j : Json) : IsClosed 1 fun s rest => readFlag s = .ok (j, rest) := by
  intro s rest h
  obtain ⟨tail, htail, hword, hj⟩ | ⟨tail, htail, hword, hj⟩ := readFlag_eq_ok_iff.mp h
  · have hparts := (isClosed_spaced 't').isLocal.thenClosed (isClosed_expectWord ['r', 'u', 'e'])
    refine hparts.via ⟨tail, htail, hword⟩ (by decide) ?_
    exact fun _ _ ⟨tail, htail, hword⟩ => readFlag_eq_ok_iff.mpr (.inl ⟨tail, htail, hword, hj⟩)
  · have hparts := (isClosed_spaced 'f').isLocal.thenClosed (isClosed_expectWord ['a', 'l', 's', 'e'])
    refine hparts.via ⟨tail, htail, hword⟩ (by decide) ?_
    exact fun _ _ ⟨tail, htail, hword⟩ => readFlag_eq_ok_iff.mpr (.inr ⟨tail, htail, hword, hj⟩)

theorem countOf_eq_ok_iff {r : Except Fault (Number × List Char)} : countOf r = .ok (j, rest) ↔
    ∃ n, r = .ok (.whole n, rest) ∧ .number (.whole n) = j := by
  rcases r with f | ⟨n | n | n, tail⟩ <;> simp [countOf, stop, and_assoc, and_comm]

theorem readCount_eq_ok_iff : readCount s = .ok (j, rest) ↔
    (∃ tail, skipSpaces s = '-' :: tail ∧ countOf (numberBody true tail) = .ok (j, rest)) ∨
    ∃ middle, skipSpaces s = middle ∧ digitNext middle = true ∧ countOf (numberBody false middle) = .ok (j, rest) := by
  unfold readCount
  cases skipSpaces s with
  | nil => simp [digitNext, stopAt, stop]
  | cons c tail =>
    by_cases hminus : c = '-'
    · simp [hminus, digitNext, Text.isDigit]
    by_cases hdigit : Text.isDigit c = true
    · simp [hminus, hdigit, digitNext]
    · simp [hminus, hdigit, digitNext, mismatch_ne_ok]

theorem isLocal_countOf_numberBody (isNegative : Bool) (j : Json) :
    IsLocal 1 fun s rest => countOf (numberBody isNegative s) = .ok (j, rest) := by
  intro s rest h
  obtain ⟨n, hn, hj⟩ := countOf_eq_ok_iff.mp h
  exact (isLocal_numberBody isNegative (.whole n)).via hn (Nat.le_refl _) fun _ _ hx =>
    countOf_eq_ok_iff.mpr ⟨n, hx, hj⟩

theorem isLocal_readCount (j : Json) : IsLocal 1 fun s rest => readCount s = .ok (j, rest) := by
  intro s rest h
  obtain hminus | ⟨middle, hmiddle, hdigit, hcount⟩ := readCount_eq_ok_iff.mp h
  · have hparts := (isClosed_spaced '-').isLocal.then (isLocal_countOf_numberBody true j)
    exact hparts.via hminus (by omega) fun _ _ hx => readCount_eq_ok_iff.mpr (.inl hx)
  · have hparts := isLocal_skipSpaces.then ((isLocal_digitNext true).then (isLocal_countOf_numberBody false j))
    refine hparts.via ⟨middle, hmiddle, middle, ⟨rfl, hdigit⟩, hcount⟩ (by omega) ?_
    rintro x t ⟨_, hx, middle, ⟨rfl, hdigit⟩, hcount⟩
    exact readCount_eq_ok_iff.mpr (.inr ⟨middle, hx, hdigit, hcount⟩)

theorem readNull_eq_ok_iff : readNull s = .ok ((), rest) ↔
    ∃ tail, skipSpaces s = 'n' :: tail ∧ expectWord ['u', 'l', 'l'] tail = .ok rest := by
  unfold readNull
  cases skipSpaces s with
  | nil => simp [stopAt, stop]
  | cons c tail => by_cases hn : c = 'n' <;> simp [hn, map_eq_ok_iff, mismatch_ne_ok]

theorem isClosed_null : IsClosed 1 fun s rest =>
    ∃ tail, skipSpaces s = 'n' :: tail ∧ expectWord ['u', 'l', 'l'] tail = .ok rest := by
  intro s rest h
  exact ((isClosed_spaced 'n').isLocal.thenClosed (isClosed_expectWord ['u', 'l', 'l'])).via h (by decide) fun _ _ hx => hx

theorem readWordObject_eq_ok_iff : readWordObject s = .ok (j, rest) ↔
    ∃ name, .string name = j ∧ ∃ colon, readText "variant identifier" s = .ok (name, colon) ∧
      ∃ value, expectColon colon = .ok value ∧
        ∃ close, (∃ tail, skipSpaces value = 'n' :: tail ∧ expectWord ['u', 'l', 'l'] tail = .ok close) ∧
          skipSpaces close = '\x7d' :: rest := by
  simp only [← readNull_eq_ok_iff]
  constructor
  · intro h
    unfold readWordObject at h
    split at h
    · cases h
    next name colon htext =>
    split at h
    · cases h
    next value hcolon =>
    split at h
    · cases h
    next close hnull =>
    rw [inside_eq_ok_iff] at hnull
    split at h
    · cases h
    · next tail hclose =>
      obtain ⟨rfl, rfl⟩ : Json.string name = j ∧ tail = rest := by simpa using h
      exact ⟨name, rfl, colon, htext, value, hcolon, close, hnull, hclose⟩
    · cases h
  · rintro ⟨name, rfl, colon, htext, value, hcolon, close, hnull, hclose⟩
    simp [readWordObject, htext, hcolon, hnull, hclose, inside]

theorem isClosed_readWordObject (j : Json) : IsClosed 1 fun s rest => readWordObject s = .ok (j, rest) := by
  intro s rest h
  obtain ⟨name, hname, hparts⟩ := readWordObject_eq_ok_iff.mp h
  have hclosed := (isClosed_readText "variant identifier" name).isLocal.thenClosed
    (isClosed_expectColon.isLocal.thenClosed (isClosed_null.isLocal.thenClosed (isClosed_spaced '\x7d')))
  exact hclosed.via hparts (by omega) fun _ _ hx => readWordObject_eq_ok_iff.mpr ⟨name, hname, hx⟩

theorem readWord_eq_ok_iff {depth : Nat} : readWord depth s = .ok (j, rest) ↔
    (depth ≠ 0 ∧ ∃ tail, skipSpaces s = '\x7b' :: tail ∧ readWordObject tail = .ok (j, rest)) ∨
    ∃ word, .string word = j ∧ ∃ opened, skipSpaces s = '"' :: opened ∧
      ∃ cs, stringBody opened = .ok (cs, rest) ∧ String.ofList cs = word := by
  unfold readWord
  cases skipSpaces s with
  | nil => simp [stopAt, stop]
  | cons c tail =>
    by_cases hbrace : c = '\x7b'
    · by_cases hdepth : depth = 0 <;> simp [hbrace, hdepth, stopAt, stop]
    by_cases hquote : c = '"'
    · have hspaces : skipSpaces ('"' :: tail) = '"' :: tail := rfl
      simp [hquote, mapFirst_eq_ok_iff, readText_eq_ok_iff, hspaces]
    · simp [hbrace, hquote, stopAt, stop]

theorem isClosed_readWord (depth : Nat) (j : Json) : IsClosed 1 fun s rest => readWord depth s = .ok (j, rest) := by
  intro s rest h
  obtain ⟨hdepth, hobject⟩ | ⟨word, hword, hquoted⟩ := readWord_eq_ok_iff.mp h
  · have hclosed := (isClosed_spaced '\x7b').isLocal.thenClosed (isClosed_readWordObject j)
    exact hclosed.via hobject (by omega) fun _ _ hx => readWord_eq_ok_iff.mpr (.inl ⟨hdepth, hx⟩)
  · exact (isClosed_quoted word).via hquoted (by omega) fun _ _ hx => readWord_eq_ok_iff.mpr (.inr ⟨word, hword, hx⟩)

theorem isLocal_readScalar (c : Char) (j : Json) : IsLocal 0 fun s rest => readScalar c s = .ok (j, rest) := by
  unfold readScalar
  by_cases hn : c = 'n'
  · simpa only [if_pos hn] using isLocal_mapWord ['u', 'l', 'l'] Json.null j
  by_cases ht : c = 't'
  · simpa only [if_neg hn, if_pos ht] using isLocal_mapWord ['r', 'u', 'e'] (Json.bool true) j
  by_cases hf : c = 'f'
  · simpa only [if_neg hn, if_neg ht, if_pos hf] using isLocal_mapWord ['a', 'l', 's', 'e'] (Json.bool false) j
  by_cases hminus : c = '-'
  · simpa only [if_neg hn, if_neg ht, if_neg hf, if_pos hminus] using
      (isLocal_map (isLocal_numberBody true)).weaken (Nat.zero_le _)
  by_cases hdigit : Text.isDigit c = true
  · simpa only [if_neg hn, if_neg ht, if_neg hf, if_neg hminus, if_pos hdigit] using
      (isLocal_map (isLocal_numberBody false)).tail c
  by_cases hquote : c = '"'
  · simpa only [if_neg hn, if_neg ht, if_neg hf, if_neg hminus, if_neg hdigit, if_pos hquote] using
      (isLocal_map (f := fun cs => Json.string (String.ofList cs)) fun cs =>
        (isClosed_stringBody cs).isLocal).weaken (Nat.zero_le _)
  · intro s rest h
    rw [if_neg hn, if_neg ht, if_neg hf, if_neg hminus, if_neg hdigit, if_neg hquote] at h
    cases h

end Values

end ModuleScaffold.Json
