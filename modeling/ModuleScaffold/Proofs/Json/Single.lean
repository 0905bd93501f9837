import ModuleScaffold.Proofs.Json.Meaning

/-! # Single values

Which kind of value stands in a text shows in its first character. Main statements: a reader gets from the text of a single
value, and of a word that is written as an object, just what it says. -/

namespace ModuleScaffold.Json

variable {ρ : Type}

/-- Whether a value of a shape may begin with a character. -/
def Shape.admits : Shape ρ → Char → Bool
  | text, c => c == '"'
  | flag, c => c == 't' || c == 'f'
  | count, c => c == '-' || Text.isDigit c
  | word, c => c == '"' || c == '\x7b'
  | list _, c => c == '['
  | table _, c => c == '\x7b'
  | record _, c => c == '[' || c == '\x7b'
  | any, _ | optional _, _ => true

section Single

open Passage

variable {v : Vocabulary ρ} {shape : Shape ρ} {depth m : Nat} {s rest tail : List Char} {c : Char} {j : Json}

theorem readValue_flag : readValue v .flag depth s (m + 1) = readFlag s := by rw [readValue]

theorem readValue_count : readValue v .count depth s (m + 1) = readCount s := by rw [readValue]

theorem readValue_word : readValue v .word depth s (m + 1) = readWord depth s := by rw [readValue]

theorem readValue_any_scalar (hs : skipSpaces s = c :: tail) (hlist : c ≠ '[') (hobject : c ≠ '\x7b') :
    readValue v .any depth s (m + 1) = readScalar c tail := by
  rw [readValue, hs]
  simp [hlist, hobject]

theorem readValue_any_list (hs : skipSpaces s = '[' :: tail) : readValue v .any depth s (m + 1) = .ok (j, rest) ↔
    ∃ es, .array es = j ∧ depth ≠ 0 ∧ readElements v .any 0 (depth - 1) tail m = .ok (es, rest) := by
  simp [readValue_any_eq_ok_iff, Opens, hs, readScalar, Text.isDigit, stopAt, stop]

theorem readValue_any_object (hs : skipSpaces s = '\x7b' :: tail) : readValue v .any depth s (m + 1) = .ok (j, rest) ↔
    ∃ ms, .object ms = j ∧ depth ≠ 0 ∧ readTable v .any true (depth - 1) tail m = .ok (ms, rest) := by
  simp [readValue_any_eq_ok_iff, Opens, hs, readScalar, Text.isDigit, stopAt, stop]

theorem readValue_list {element : Shape ρ} (hs : skipSpaces s = '[' :: tail) :
    readValue v (.list element) depth s (m + 1) = .ok (j, rest) ↔
      ∃ es, .array es = j ∧ depth ≠ 0 ∧ readElements v element 0 (depth - 1) tail m = .ok (es, rest) := by
  simp [readValue_list_eq_ok_iff, Opens, hs]

theorem readValue_table {value : Shape ρ} (hs : skipSpaces s = '\x7b' :: tail) :
    readValue v (.table value) depth s (m + 1) = .ok (j, rest) ↔
      ∃ ms, .object ms = j ∧ depth ≠ 0 ∧ readTable v value true (depth - 1) tail m = .ok (ms, rest) := by
  simp [readValue_table_eq_ok_iff, Opens, hs]

theorem readValue_record_list {name : ρ} (hs : skipSpaces s = '[' :: tail) :
    readValue v (.record name) depth s (m + 1) = .ok (j, rest) ↔
      ∃ ms, .object ms = j ∧ depth ≠ 0 ∧ readFields v (v.members name) 0 (depth - 1) tail m = .ok (ms, rest) := by
  simp [readValue_record_eq_ok_iff, Opens, hs]

theorem readValue_record_object {name : ρ} (hs : skipSpaces s = '\x7b' :: tail) :
    readValue v (.record name) depth s (m + 1) = .ok (j, rest) ↔ ∃ ms, .object ms = j ∧
      depth ≠ 0 ∧ readMembers v (v.members name) [] true (depth - 1) tail m = .ok (ms, rest) := by
  simp [readValue_record_eq_ok_iff, Opens, hs]

theorem readWord_object (hs : skipSpaces s = '\x7b' :: tail) : readValue v .word depth s (m + 1) = .ok (j, rest) ↔
    depth ≠ 0 ∧ readWordObject tail = .ok (j, rest) := by
  simp [readValue_word, readWord_eq_ok_iff, hs]

theorem readValue_ne_ok (hs : skipSpaces s = c :: tail) (h : shape.admits c = false) :
    readValue v shape depth s (m + 1) ≠ .ok (j, rest) := by
  cases shape with
  | text =>
    have hquote : c ≠ '"' := by simpa [Shape.admits] using h
    simp [readValue_text_eq_ok_iff, readText_eq_ok_iff, hs, hquote]
  | flag =>
    obtain ⟨ht, hf⟩ : c ≠ 't' ∧ c ≠ 'f' := by simpa [Shape.admits] using h
    simp [readValue_flag, readFlag_eq_ok_iff, hs, ht, hf]
  | count =>
    obtain ⟨hminus, hdigit⟩ : c ≠ '-' ∧ Text.isDigit c = false := by simpa [Shape.admits] using h
    simp [readValue_count, readCount_eq_ok_iff, hs, hminus, digitNext, hdigit]
  | word =>
    obtain ⟨hquote, hbrace⟩ : c ≠ '"' ∧ c ≠ '\x7b' := by simpa [Shape.admits] using h
    simp [readValue_word, readWord_eq_ok_iff, hs, hquote, hbrace]
  | list =>
    have hbracket : c ≠ '[' := by simpa [Shape.admits] using h
    simp [readValue_list_eq_ok_iff, Opens, hs, hbracket]
  | table =>
    have hbrace : c ≠ '\x7b' := by simpa [Shape.admits] using h
    simp [readValue_table_eq_ok_iff, Opens, hs, hbrace]
  | record =>
    obtain ⟨hbracket, hbrace⟩ : c ≠ '[' ∧ c ≠ '\x7b' := by simpa [Shape.admits] using h
    simp [readValue_record_eq_ok_iff, Opens, hs, hbracket, hbrace]
  | any | optional => cases h

namespace Tree

theorem readValue_null (hshape : shape.layers = 0) (hs : skipSpaces s = ['n', 'u', 'l', 'l'] ++ rest) :
    readValue v shape depth s (m + 1) = .ok (j, tail) ↔ tail = rest ∧ null.read? v shape = some j := by
  cases shape with
  | optional => cases hshape
  | any =>
    rw [readValue_any_scalar hs (by decide) (by decide)]
    simp [readScalar, expectWord, read?, Except.map, and_comm, eq_comm]
  | text | flag | count | word | list | table | record =>
    exact iff_of_false (readValue_ne_ok hs rfl) (by simp [read?])

theorem readValue_bool {b : Bool} {word : List Char} (hshape : shape.layers = 0) (hb : (bool b).IsText word)
    (hs : skipSpaces s = word ++ rest) :
    readValue v shape depth s (m + 1) = .ok (j, tail) ↔ tail = rest ∧ (bool b).read? v shape = some j := by
  cases b <;> obtain rfl := hb <;> cases shape with
  | optional => cases hshape
  | flag =>
    rw [readValue_flag, readFlag_eq_ok_iff]
    simp [hs, expectWord, read?, Shape.plain, eq_comm]
  | any =>
    rw [readValue_any_scalar hs (by decide) (by decide)]
    simp [readScalar, expectWord, read?, Shape.plain, Except.map, and_comm, eq_comm]
  | text | count | word | list | table | record =>
    exact iff_of_false (readValue_ne_ok hs rfl) (by simp [read?, Shape.plain])

theorem readValue_string (l : Literal) (hshape : shape.layers = 0)
    (hs : skipSpaces s = '"' :: (l.chars ++ '"' :: rest)) :
    readValue v shape depth s (m + 1) = .ok (j, tail) ↔ tail = rest ∧ (string l).read? v shape = some j := by
  have htext : (∃ text, .string text = j ∧
      ∃ cs, stringBody (l.chars ++ '"' :: rest) = .ok (cs, tail) ∧ String.ofList cs = text) ↔
        tail = rest ∧ ∃ text, l.value? = some text ∧ .string text = j := by
    simp only [l.exists_stringBody_iff]
    constructor
    · rintro ⟨text, hj, htail, hvalue⟩
      exact ⟨htail, text, hvalue, hj⟩
    · rintro ⟨htail, text, hvalue, hj⟩
      exact ⟨text, hj, htail, hvalue⟩
  cases shape with
  | optional => cases hshape
  | text =>
    rw [readValue_text_eq_ok_iff]
    simpa [readText_eq_ok_iff, hs, read?, Shape.plain] using htext
  | word =>
    rw [readValue_word, readWord_eq_ok_iff]
    simpa [hs, read?, Shape.plain] using htext
  | any =>
    have hscalar : readScalar '"' (l.chars ++ '"' :: rest) =
      (stringBody (l.chars ++ '"' :: rest)).map fun p => (.string (String.ofList p.1), p.2) := rfl
    rw [readValue_any_scalar hs (by decide) (by decide), hscalar,
      mapFirst_eq_ok_iff (f := fun cs => Json.string (String.ofList cs))]
    simp only [read?, Shape.plain, Option.map_eq_some_iff, ← htext]
    constructor
    · rintro ⟨cs, hj, hcs⟩
      exact ⟨_, hj, cs, hcs, rfl⟩
    · rintro ⟨_, hj, cs, hcs, rfl⟩
      exact ⟨cs, hj, hcs⟩
  | flag | count | list | table | record =>
    exact iff_of_false (readValue_ne_ok hs rfl) (by simp [read?, Shape.plain])

/-- A numeral is read by its sign and its digits, whichever of them is its first character. -/
theorem numberBody_of_front (n : Numeral) (hs : skipSpaces s = n.chars ++ rest) (j : Json) (tail : List Char) :
    ∃ c more, skipSpaces s = c :: more ∧ (c == '-' || Text.isDigit c) = true ∧
      (readCount s = .ok (j, tail) ↔ countOf (numberBody n.isNegative (n.unsigned ++ rest)) = .ok (j, tail)) ∧
      readScalar c more = (numberBody n.isNegative (n.unsigned ++ rest)).map fun p => (.number p.1, p.2) := by
  obtain ⟨c, more, hunsigned, hc⟩ := n.unsigned_front
  cases hn : n.isNegative with
  | true =>
    rw [Numeral.chars, hn, if_pos rfl, List.cons_append] at hs
    refine ⟨_, _, hs, rfl, ?_, rfl⟩
    simp [readCount_eq_ok_iff, hs, digitNext, Text.isDigit]
  | false =>
    rw [Numeral.chars, hn, if_neg (by decide), hunsigned, List.cons_append] at hs
    have hne {d : Char} (hd : Text.isDigit d = false) : c ≠ d := ne_of_holds hc hd
    refine ⟨c, more ++ rest, hs, by simp [hc], ?_, ?_⟩
    · simp [readCount_eq_ok_iff, hs, hne (d := '-') rfl, digitNext, hc, hunsigned]
    · rw [readScalar, if_neg (hne rfl), if_neg (hne rfl), if_neg (hne rfl), if_neg (hne rfl), if_pos hc, hunsigned]
      rfl

theorem readValue_number (n : Numeral) (hshape : shape.layers = 0) (hs : skipSpaces s = n.chars ++ rest)
    (hr : Ends rest) :
    readValue v shape depth s (m + 1) = .ok (j, tail) ↔ tail = rest ∧ (number n).read? v shape = some j := by
  obtain ⟨c, more, hfront, hc, hcount, hscalar⟩ := numberBody_of_front n hs j tail
  have hne {d : Char} (hd : (d == '-' || Text.isDigit d) = false) : c ≠ d :=
    ne_of_holds (p := fun c => c == '-' || Text.isDigit c) hc hd
  cases shape with
  | optional => cases hshape
  | count =>
    rw [readValue_count, hcount, countOf_eq_ok_iff]
    simp only [n.numberBody_eq_ok_iff hr, read?, Shape.plain]
    cases n.value? with
    | none => simp
    | some k => cases k <;> simp [countOf?, and_assoc]
  | any =>
    rw [readValue_any_scalar hfront (hne rfl) (hne rfl), hscalar, mapFirst_eq_ok_iff]
    simp only [n.numberBody_eq_ok_iff hr, read?, Shape.plain, Option.map_eq_some_iff]
    constructor
    · rintro ⟨k, hj, htail, hk⟩
      exact ⟨htail, k, hk, hj⟩
    · rintro ⟨htail, k, hk, hj⟩
      exact ⟨k, hj, htail, hk⟩
  | text | flag | word | list | table | record =>
    have hmarks : c ≠ '"' ∧ c ≠ 't' ∧ c ≠ 'f' ∧ c ≠ '[' ∧ c ≠ '\x7b' :=
      ⟨hne rfl, hne rfl, hne rfl, hne rfl, hne rfl⟩
    exact iff_of_false (readValue_ne_ok hfront (by simp [Shape.admits, hmarks])) (by simp [read?, Shape.plain])

end Tree

end Single

/-! ## Words that are written as objects -/

namespace Tree

section Words

variable {t : Tree} {ms : List (Literal × Tree)} {s body rest tail close : List Char} {j : Json}

theorem IsText.eq_null (ht : t.IsText s) (h : s ++ rest = 'n' :: tail) : t = .null := by
  obtain ⟨c, word, rfl, hfront⟩ := ht.front
  obtain ⟨rfl, -⟩ := List.cons.inj h
  cases t with
  | null => rfl
  | bool b => cases b <;> cases hfront
  | number | string | array | object => cases hfront

theorem IsText.null_iff (ht : t.IsText s) :
    (∃ more, s ++ rest = 'n' :: more ∧ expectWord ['u', 'l', 'l'] more = .ok close) ↔ t = .null ∧ close = rest := by
  constructor
  · rintro ⟨more, hs, hmore⟩
    obtain rfl := ht.eq_null hs
    obtain rfl := ht
    obtain rfl := (List.cons.inj hs).2
    exact ⟨rfl, (Except.ok.inj ((expectWord_append _ rest).symm.trans hmore)).symm⟩
  · rintro ⟨rfl, rfl⟩
    obtain rfl := ht
    exact ⟨_, rfl, expectWord_append _ _⟩

theorem members_end_iff (h : AreMembers false ms s) : skipSpaces (s ++ rest) = '\x7d' :: tail ↔ ms = [] ∧ tail = rest := by
  cases ms with
  | nil =>
    obtain ⟨gap, hg, rfl⟩ := h
    rw [List.append_assoc, List.singleton_append, skipSpaces_gap hg (by decide)]
    simp [eq_comm]
  | cons m ms =>
    obtain ⟨lead, colon, gap, text, more, hl, -, -, -, -, rfl⟩ := h
    cases hl with
    | next hg _ =>
      rw [List.append_assoc, List.append_assoc, List.cons_append, skipSpaces_gap hg (by decide)]
      simp

theorem readText_quoted {gap : List Char} {wanted text : String} (hg : IsGap gap) (l : Literal) :
    readText wanted (gap ++ (l.quoted ++ rest)) = .ok (text, tail) ↔ tail = rest ∧ l.value? = some text := by
  have hquoted : l.quoted ++ rest = '"' :: (l.chars ++ '"' :: rest) := by simp [Literal.quoted]
  rw [readText_eq_ok_iff, hquoted, skipSpaces_gap hg (by decide), ← l.exists_stringBody_iff]
  simp

theorem readWordObject_text (h : AreMembers true ms body) :
    readWordObject (body ++ rest) = .ok (j, tail) ↔ tail = rest ∧ wordOf? ms = some j := by
  rw [readWordObject_eq_ok_iff]
  cases ms with
  | nil =>
    obtain ⟨gap, hg, rfl⟩ := h
    rw [List.append_assoc, List.singleton_append]
    simp [readText_eq_ok_iff, skipSpaces_gap hg (c := '\x7d') (by decide), wordOf?]
  | cons m ms =>
    obtain ⟨l, t⟩ := m
    obtain ⟨lead, colon, gap, text, more, hl, hcolon, hgap, ht, hmore, rfl⟩ := h
    cases hl with
    | first hlead =>
      simp only [List.append_assoc, List.cons_append]
      constructor
      · rintro ⟨name, rfl, _, htext, _, hvalue, _, hnull, hclose⟩
        obtain ⟨rfl, hname⟩ := (readText_quoted hlead l).mp htext
        rw [expectColon_gap hcolon] at hvalue
        obtain rfl := Except.ok.inj hvalue
        rw [ht.skipSpaces hgap _, ht.null_iff] at hnull
        obtain ⟨rfl, rfl⟩ := hnull
        obtain ⟨rfl, rfl⟩ := (members_end_iff hmore).mp hclose
        exact ⟨rfl, by rw [wordOf?, hname]; rfl⟩
      · rintro ⟨rfl, hword⟩
        obtain ⟨rfl, rfl⟩ : ms = [] ∧ t = .null := by
          unfold wordOf? at hword
          split at hword
          · next hms =>
            obtain ⟨hm, hnil⟩ := List.cons.inj hms
            exact ⟨hnil, (Prod.mk.inj hm).2⟩
          · cases hword
        obtain ⟨name, hname, rfl⟩ := Option.map_eq_some_iff.mp hword
        refine ⟨name, rfl, _, (readText_quoted hlead l).mpr ⟨rfl, hname⟩, _, expectColon_gap hcolon, more ++ tail, ?_,
          (members_end_iff hmore).mpr ⟨rfl, rfl⟩⟩
        rw [ht.skipSpaces hgap _]
        exact ht.null_iff.mpr ⟨rfl, rfl⟩

end Words

end Tree

end ModuleScaffold.Json
