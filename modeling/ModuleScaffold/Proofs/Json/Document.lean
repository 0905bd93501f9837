import ModuleScaffold.Proofs.Json.Skip
import ModuleScaffold.Proofs.Json.Part

/-! # Values of any shape, wherever they stand

Main statement: a record is read the same way from every text that begins with it, `isClosed_readFront_record`. -/

namespace ModuleScaffold.Json

open Passage

/-- Goes into a list or an object, for which there must be room. -/
def Passage.Opens (mark : Char) (depth : Nat) (R : Passage) : Passage := fun s rest =>
  depth ≠ 0 ∧ ∃ tail, skipSpaces s = mark :: tail ∧ R tail rest

theorem isClosed_opens {n : Nat} {R : Passage} (mark : Char) (depth : Nat) (h : IsClosed (n + 1) R) :
    IsClosed (n + 2) (Opens mark depth R) := by
  rintro s rest ⟨hdepth, hparts⟩
  exact ((isClosed_spaced mark).isLocal.thenClosed h).via hparts (by omega) fun _ _ hx => ⟨hdepth, hx⟩

section Steps

variable {ρ : Type} {v : Vocabulary ρ} {shape : Shape ρ} {name : ρ} {depth steps i : Nat} {s rest : List Char} {j : Json}
  {fields : List (String × Shape ρ)} {seen : List String} {first : Bool}

/-! ## What one step can do -/

theorem readValue_text_eq_ok_iff : readValue v .text depth s (steps + 1) = .ok (j, rest) ↔
    ∃ text, .string text = j ∧ readText "a string" s = .ok (text, rest) := by
  rw [readValue]
  exact mapFirst_eq_ok_iff

theorem readValue_optional_eq_ok_iff : readValue v (.optional shape) depth s (steps + 1) = .ok (j, rest) ↔
    (.null = j ∧ ∃ tail, skipSpaces s = 'n' :: tail ∧ expectWord ['u', 'l', 'l'] tail = .ok rest) ∨
    ∃ middle, skipSpaces s = middle ∧ middle.head? ≠ some 'n' ∧ readValue v shape depth middle steps = .ok (j, rest) := by
  rw [readValue]
  cases skipSpaces s with
  | nil => simp
  | cons c tail => by_cases hc : c = 'n' <;> simp [hc, map_eq_ok_iff, and_assoc, and_comm]

theorem readValue_any_eq_ok_iff : readValue v .any depth s (steps + 1) = .ok (j, rest) ↔
    (∃ es, .array es = j ∧
      Opens '[' depth (fun s rest => readElements v .any 0 (depth - 1) s steps = .ok (es, rest)) s rest) ∨
    (∃ ms, .object ms = j ∧
      Opens '\x7b' depth (fun s rest => readTable v .any true (depth - 1) s steps = .ok (ms, rest)) s rest) ∨
    ∃ c tail, skipSpaces s = c :: tail ∧ readScalar c tail = .ok (j, rest) := by
  rw [readValue]
  simp only [Opens]
  cases skipSpaces s with
  | nil => simp [stopAt, stop]
  | cons c tail =>
    by_cases hlist : c = '['
    · by_cases hdepth : depth = 0 <;>
        simp [hlist, hdepth, mapFirst_eq_ok_iff, readScalar, Text.isDigit, stopAt, stop]
    by_cases hobject : c = '\x7b'
    · by_cases hdepth : depth = 0 <;>
        simp [hobject, hdepth, mapFirst_eq_ok_iff, readScalar, Text.isDigit, stopAt, stop]
    simp only [hlist, hobject, if_false, List.cons.injEq, false_and, and_false, exists_false, false_or]
    constructor
    · exact fun h => ⟨c, tail, ⟨rfl, rfl⟩, h⟩
    · rintro ⟨_, _, ⟨rfl, rfl⟩, h⟩
      exact h

theorem readValue_list_eq_ok_iff : readValue v (.list shape) depth s (steps + 1) = .ok (j, rest) ↔
    ∃ es, .array es = j ∧
      Opens '[' depth (fun s rest => readElements v shape 0 (depth - 1) s steps = .ok (es, rest)) s rest := by
  rw [readValue]
  simp only [Opens]
  cases skipSpaces s with
  | nil => simp [stopAt, stop]
  | cons c tail =>
    by_cases hc : c = '['
    · by_cases hdepth : depth = 0 <;> simp [hc, hdepth, mapFirst_eq_ok_iff, stopAt, stop]
    · simp [hc, mismatch_ne_ok]

theorem readValue_table_eq_ok_iff : readValue v (.table shape) depth s (steps + 1) = .ok (j, rest) ↔
    ∃ ms, .object ms = j ∧
      Opens '\x7b' depth (fun s rest => readTable v shape true (depth - 1) s steps = .ok (ms, rest)) s rest := by
  rw [readValue]
  simp only [Opens]
  cases skipSpaces s with
  | nil => simp [stopAt, stop]
  | cons c tail =>
    by_cases hc : c = '\x7b'
    · by_cases hdepth : depth = 0 <;> simp [hc, hdepth, mapFirst_eq_ok_iff, stopAt, stop]
    · simp [hc, mismatch_ne_ok]

theorem readValue_record_eq_ok_iff : readValue v (.record name) depth s (steps + 1) = .ok (j, rest) ↔
    ∃ ms, .object ms = j ∧
      (Opens '[' depth (fun s rest => readFields v (v.members name) 0 (depth - 1) s steps = .ok (ms, rest)) s rest ∨
      Opens '\x7b' depth
        (fun s rest => readMembers v (v.members name) [] true (depth - 1) s steps = .ok (ms, rest)) s rest) := by
  rw [readValue]
  simp only [Opens]
  cases skipSpaces s with
  | nil => simp [stopAt, stop]
  | cons c tail =>
    by_cases hlist : c = '['
    · by_cases hdepth : depth = 0 <;> simp [hlist, hdepth, mapFirst_eq_ok_iff, stopAt, stop]
    by_cases hobject : c = '\x7b'
    · by_cases hdepth : depth = 0 <;> simp [hobject, hdepth, mapFirst_eq_ok_iff, stopAt, stop]
    · simp [hlist, hobject, mismatch_ne_ok]

theorem addElement_eq_ok_iff {element : Json} {r : Except Fault (List Json × List Char)} {es : List Json} :
    addElement element r = .ok (es, rest) ↔ ∃ more, element :: more = es ∧ r = .ok (more, rest) := by
  rw [← mapFirst_eq_ok_iff]
  cases r <;> rfl

theorem addMember_eq_ok_iff {key : String} {value : Json} {r : Except Fault (List (String × Json) × List Char)}
    {ms : List (String × Json)} :
    addMember key value r = .ok (ms, rest) ↔ ∃ more, (key, value) :: more = ms ∧ r = .ok (more, rest) := by
  rw [← mapFirst_eq_ok_iff]
  cases r <;> rfl

theorem readElements_eq_ok_iff {es : List Json} : readElements v shape i depth s (steps + 1) = .ok (es, rest) ↔
    ([] = es ∧ nextElement (i == 0) s = .ok (none, rest)) ∨
    ∃ element more, element :: more = es ∧ ∃ begun, nextElement (i == 0) s = .ok (some (), begun) ∧
      ∃ tail, readValue v shape depth begun steps = .ok (element, tail) ∧
        readElements v shape (i + 1) depth tail steps = .ok (more, rest) := by
  rw [readElements]
  constructor
  · intro h
    split at h
    · cases h
    · next hend =>
      obtain ⟨rfl, rfl⟩ : [] = es ∧ _ = rest := by simpa using h
      exact .inl ⟨rfl, hend⟩
    next begun hbegun =>
    split at h
    · cases h
    next element tail hvalue =>
    obtain ⟨more, hes, hmore⟩ := addElement_eq_ok_iff.mp h
    exact .inr ⟨element, more, hes, begun, hbegun, tail, inside_eq_ok_iff.mp hvalue, hmore⟩
  · rintro (⟨rfl, hend⟩ | ⟨element, more, rfl, begun, hbegun, tail, hvalue, hmore⟩)
    · simp [hend]
    · simp [hbegun, hvalue, hmore, inside, addElement]

theorem readTable_eq_ok_iff {ms : List (String × Json)} : readTable v shape first depth s (steps + 1) = .ok (ms, rest) ↔
    ([] = ms ∧ nextKey first s = .ok (none, rest)) ∨
    ∃ key value more, (key, value) :: more = ms ∧ ∃ colon, nextKey first s = .ok (some key, colon) ∧
      ∃ begun, expectColon colon = .ok begun ∧ ∃ tail, readValue v shape depth begun steps = .ok (value, tail) ∧
        readTable v shape false depth tail steps = .ok (more, rest) := by
  rw [readTable]
  constructor
  · intro h
    split at h
    · cases h
    · next hend =>
      obtain ⟨rfl, rfl⟩ : [] = ms ∧ _ = rest := by simpa using h
      exact .inl ⟨rfl, hend⟩
    next key colon hkey =>
    split at h
    · cases h
    next begun hbegun =>
    split at h
    · cases h
    next value tail hvalue =>
    obtain ⟨more, hms, hmore⟩ := addMember_eq_ok_iff.mp h
    exact .inr ⟨key, value, more, hms, colon, hkey, begun, hbegun, tail, inside_eq_ok_iff.mp hvalue, hmore⟩
  · rintro (⟨rfl, hend⟩ | ⟨key, value, more, rfl, colon, hkey, begun, hbegun, tail, hvalue, hmore⟩)
    · simp [hend]
    · simp [hkey, hbegun, hvalue, hmore, inside, addMember]

theorem readMembers_eq_ok_iff {ms : List (String × Json)} :
    readMembers v fields seen first depth s (steps + 1) = .ok (ms, rest) ↔
    ([] = ms ∧ nextKey first s = .ok (none, rest)) ∨
    (∃ key, memberShape? key fields = none ∧ ∃ colon, nextKey first s = .ok (some key, colon) ∧
      ∃ begun, expectColon colon = .ok begun ∧ ∃ tail, skipValue begun = .ok tail ∧
        readMembers v fields seen false depth tail steps = .ok (ms, rest)) ∨
    ∃ key shape, (memberShape? key fields = some shape ∧ key ∉ seen) ∧ ∃ value more, (key, value) :: more = ms ∧
      ∃ colon, nextKey first s = .ok (some key, colon) ∧ ∃ begun, expectColon colon = .ok begun ∧
        ∃ tail, readValue v shape depth begun steps = .ok (value, tail) ∧
          readMembers v fields (key :: seen) false depth tail steps = .ok (more, rest) := by
  rw [readMembers]
  constructor
  · intro h
    split at h
    · cases h
    · next hend =>
      obtain ⟨rfl, rfl⟩ : [] = ms ∧ _ = rest := by simpa using h
      exact .inl ⟨rfl, hend⟩
    next key colon hkey =>
    split at h
    · next hshape =>
      split at h
      · cases h
      next begun hbegun =>
      split at h
      · cases h
      next tail hskip =>
      exact .inr (.inl ⟨key, hshape, colon, hkey, begun, hbegun, tail, inside_eq_ok_iff.mp hskip, h⟩)
    next shape hshape =>
    split at h
    · cases h
    next hseen =>
    split at h
    · cases h
    next begun hbegun =>
    split at h
    · cases h
    next value tail hvalue =>
    obtain ⟨more, hms, hmore⟩ := addMember_eq_ok_iff.mp h
    exact .inr (.inr ⟨key, shape, ⟨hshape, hseen⟩, value, more, hms, colon, hkey, begun, hbegun, tail,
      inside_eq_ok_iff.mp hvalue, hmore⟩)
  · rintro (⟨rfl, hend⟩ | ⟨key, hshape, colon, hkey, begun, hbegun, tail, hskip, hmore⟩ |
      ⟨key, shape, ⟨hshape, hseen⟩, value, more, rfl, colon, hkey, begun, hbegun, tail, hvalue, hmore⟩)
    · simp [hend]
    · simp [hkey, hshape, hbegun, hskip, hmore, inside]
    · simp [hkey, hshape, hseen, hbegun, hvalue, hmore, inside, addMember]

theorem readFields_nil_eq_ok_iff {ms : List (String × Json)} :
    readFields v [] i depth s (steps + 1) = .ok (ms, rest) ↔ [] = ms ∧ endList s = .ok rest := by
  rw [readFields]
  simp [map_eq_ok_iff, and_assoc, and_comm]

theorem readFields_cons_eq_ok_iff {field : String} {ms : List (String × Json)} :
    readFields v ((field, shape) :: fields) i depth s (steps + 1) = .ok (ms, rest) ↔
    ([] = ms ∧ nextElement (i == 0) s = .ok (none, rest)) ∨
    ∃ value more, (field, value) :: more = ms ∧ ∃ begun, nextElement (i == 0) s = .ok (some (), begun) ∧
      ∃ tail, readValue v shape depth begun steps = .ok (value, tail) ∧
        readFields v fields (i + 1) depth tail steps = .ok (more, rest) := by
  rw [readFields]
  constructor
  · intro h
    split at h
    · cases h
    · next hend =>
      obtain ⟨rfl, rfl⟩ : [] = ms ∧ _ = rest := by simpa using h
      exact .inl ⟨rfl, hend⟩
    next begun hbegun =>
    split at h
    · cases h
    next value tail hvalue =>
    obtain ⟨more, hms, hmore⟩ := addMember_eq_ok_iff.mp h
    exact .inr ⟨value, more, hms, begun, hbegun, tail, inside_eq_ok_iff.mp hvalue, hmore⟩
  · rintro (⟨rfl, hend⟩ | ⟨value, more, rfl, begun, hbegun, tail, hvalue, hmore⟩)
    · simp [hend]
    · simp [hbegun, hvalue, hmore, inside, addMember]

end Steps

/-! ## The same value from every text that begins with it

The induction is on the steps, of which each function takes one before it calls another. Lists and objects are closed by
their brackets; a number is not, so that a value of any shape is local only. -/

mutual

theorem isLocal_readValue {ρ : Type} (v : Vocabulary ρ) (depth : Nat) (j : Json) : ∀ (shape : Shape ρ) (steps : Nat),
    IsLocal 1 fun s rest => readValue v shape depth s steps = .ok (j, rest)
  | _, 0 => fun _ _ h => by cases h
  | .text, steps + 1 => by
    intro s rest h
    obtain ⟨text, hj, htext⟩ := readValue_text_eq_ok_iff.mp h
    exact (isClosed_readText _ text).isLocal.via htext (Nat.le_refl _) fun _ _ hx =>
      readValue_text_eq_ok_iff.mpr ⟨text, hj, hx⟩
  | .flag, steps + 1 => fun _ _ h => (isClosed_readFlag j).isLocal h
  | .count, steps + 1 => fun _ _ h => isLocal_readCount j h
  | .word, steps + 1 => fun _ _ h => (isClosed_readWord depth j).isLocal h
  | .optional inner, steps + 1 => by
    intro s rest h
    obtain ⟨hj, hnull⟩ | ⟨middle, hmiddle, hhead, hinner⟩ := readValue_optional_eq_ok_iff.mp h
    · exact isClosed_null.isLocal.via hnull (Nat.le_refl _) fun _ _ hx => readValue_optional_eq_ok_iff.mpr (.inl ⟨hj, hx⟩)
    · have hfits : IsLocal 0 fun s rest => rest = s ∧ s.head? ≠ some 'n' := isLocal_stay fun ht hs => by rwa [ht]
      have hparts := isLocal_skipSpaces.then (hfits.then (isLocal_readValue v depth j inner steps))
      refine hparts.via ⟨middle, hmiddle, middle, ⟨rfl, hhead⟩, hinner⟩ (by omega) ?_
      rintro x t ⟨_, hx, middle, ⟨rfl, hhead⟩, hinner⟩
      exact readValue_optional_eq_ok_iff.mpr (.inr ⟨middle, hx, hhead, hinner⟩)
  | .any, steps + 1 => by
    intro s rest h
    obtain ⟨es, hj, hlist⟩ | ⟨ms, hj, hobject⟩ | ⟨c, tail, htail, hscalar⟩ := readValue_any_eq_ok_iff.mp h
    · exact (isClosed_opens _ depth (isClosed_readElements v .any (depth - 1) es 0 steps)).isLocal.via hlist (by omega)
        fun _ _ hx => readValue_any_eq_ok_iff.mpr (.inl ⟨es, hj, hx⟩)
    · exact (isClosed_opens _ depth (isClosed_readTable v .any (depth - 1) ms true steps)).isLocal.via hobject (by omega)
        fun _ _ hx => readValue_any_eq_ok_iff.mpr (.inr (.inl ⟨ms, hj, hx⟩))
    · refine ((isClosed_spaced c).isLocal.then (isLocal_readScalar c j)).via ⟨tail, htail, hscalar⟩ (Nat.le_refl _) ?_
      exact fun _ _ ⟨tail, htail, hx⟩ => readValue_any_eq_ok_iff.mpr (.inr (.inr ⟨c, tail, htail, hx⟩))
  | .list element, steps + 1 => by
    intro s rest h
    obtain ⟨es, hj, hlist⟩ := readValue_list_eq_ok_iff.mp h
    exact (isClosed_opens _ depth (isClosed_readElements v element (depth - 1) es 0 steps)).isLocal.via hlist (by omega)
      fun _ _ hx => readValue_list_eq_ok_iff.mpr ⟨es, hj, hx⟩
  | .table value, steps + 1 => by
    intro s rest h
    obtain ⟨ms, hj, hobject⟩ := readValue_table_eq_ok_iff.mp h
    exact (isClosed_opens _ depth (isClosed_readTable v value (depth - 1) ms true steps)).isLocal.via hobject (by omega)
      fun _ _ hx => readValue_table_eq_ok_iff.mpr ⟨ms, hj, hx⟩
  | .record name, steps + 1 => by
    intro s rest h
    obtain ⟨ms, hj, hlist | hobject⟩ := readValue_record_eq_ok_iff.mp h
    · exact (isClosed_opens _ depth (isClosed_readFields v (depth - 1) ms (v.members name) 0 steps)).isLocal.via hlist
        (by omega) fun _ _ hx => readValue_record_eq_ok_iff.mpr ⟨ms, hj, .inl hx⟩
    · exact (isClosed_opens _ depth (isClosed_readMembers v (v.members name) (depth - 1) ms [] true steps)).isLocal.via
        hobject (by omega) fun _ _ hx => readValue_record_eq_ok_iff.mpr ⟨ms, hj, .inr hx⟩
termination_by structural _ steps => steps

theorem isClosed_readElements {ρ : Type} (v : Vocabulary ρ) (shape : Shape ρ) (depth : Nat) (es : List Json) :
    ∀ i steps, IsClosed 1 fun s rest => readElements v shape i depth s steps = .ok (es, rest)
  | _, 0 => fun _ _ h => by cases h
  | i, steps + 1 => by
    intro s rest h
    obtain ⟨hes, hend⟩ | ⟨element, more, hes, hparts⟩ := readElements_eq_ok_iff.mp h
    · exact (isClosed_endOfElements _).via hend (Nat.le_refl _) fun _ _ hx => readElements_eq_ok_iff.mpr (.inl ⟨hes, hx⟩)
    · have hclosed := (isLocal_nextElement (i == 0)).thenClosed
        ((isLocal_readValue v depth element shape steps).thenClosed (isClosed_readElements v shape depth more (i + 1) steps))
      exact hclosed.via hparts (by omega) fun _ _ hx => readElements_eq_ok_iff.mpr (.inr ⟨element, more, hes, hx⟩)
termination_by structural _ steps => steps

theorem isClosed_readTable {ρ : Type} (v : Vocabulary ρ) (shape : Shape ρ) (depth : Nat) (ms : List (String × Json)) :
    ∀ first steps, IsClosed 1 fun s rest => readTable v shape first depth s steps = .ok (ms, rest)
  | _, 0 => fun _ _ h => by cases h
  | first, steps + 1 => by
    intro s rest h
    obtain ⟨hms, hend⟩ | ⟨key, value, more, hms, hparts⟩ := readTable_eq_ok_iff.mp h
    · exact (isClosed_endOfMembers _).via hend (Nat.le_refl _) fun _ _ hx => readTable_eq_ok_iff.mpr (.inl ⟨hms, hx⟩)
    · have hclosed := (isClosed_nextKey first key).isLocal.thenClosed (isClosed_expectColon.isLocal.thenClosed
        ((isLocal_readValue v depth value shape steps).thenClosed (isClosed_readTable v shape depth more false steps)))
      exact hclosed.via hparts (by omega) fun _ _ hx => readTable_eq_ok_iff.mpr (.inr ⟨key, value, more, hms, hx⟩)
termination_by structural _ steps => steps

theorem isClosed_readMembers {ρ : Type} (v : Vocabulary ρ) (fields : List (String × Shape ρ)) (depth : Nat)
    (ms : List (String × Json)) : ∀ seen first steps,
      IsClosed 1 fun s rest => readMembers v fields seen first depth s steps = .ok (ms, rest)
  | _, _, 0 => fun _ _ h => by cases h
  | seen, first, steps + 1 => by
    intro s rest h
    obtain ⟨hms, hend⟩ | ⟨key, hshape, hparts⟩ | ⟨key, shape, hshape, value, more, hms, hparts⟩ :=
      readMembers_eq_ok_iff.mp h
    · exact (isClosed_endOfMembers _).via hend (Nat.le_refl _) fun _ _ hx => readMembers_eq_ok_iff.mpr (.inl ⟨hms, hx⟩)
    · have hclosed := (isClosed_nextKey first key).isLocal.thenClosed (isClosed_expectColon.isLocal.thenClosed
        (isLocal_skipValue.thenClosed (isClosed_readMembers v fields depth ms seen false steps)))
      exact hclosed.via hparts (by omega) fun _ _ hx => readMembers_eq_ok_iff.mpr (.inr (.inl ⟨key, hshape, hx⟩))
    · have hclosed := (isClosed_nextKey first key).isLocal.thenClosed (isClosed_expectColon.isLocal.thenClosed
        ((isLocal_readValue v depth value shape steps).thenClosed
          (isClosed_readMembers v fields depth more (key :: seen) false steps)))
      exact hclosed.via hparts (by omega) fun _ _ hx =>
        readMembers_eq_ok_iff.mpr (.inr (.inr ⟨key, shape, hshape, value, more, hms, hx⟩))
termination_by structural _ _ steps => steps

theorem isClosed_readFields {ρ : Type} (v : Vocabulary ρ) (depth : Nat) (ms : List (String × Json)) :
    ∀ fields i steps, IsClosed 1 fun s rest => readFields v fields i depth s steps = .ok (ms, rest)
  | _, _, 0 => fun _ _ h => by cases h
  | [], i, steps + 1 => by
    intro s rest h
    obtain ⟨hms, hend⟩ := readFields_nil_eq_ok_iff.mp h
    exact isClosed_endList.via hend (Nat.le_refl _) fun _ _ hx => readFields_nil_eq_ok_iff.mpr ⟨hms, hx⟩
  | (field, shape) :: fields, i, steps + 1 => by
    intro s rest h
    obtain ⟨hms, hend⟩ | ⟨value, more, hms, hparts⟩ := readFields_cons_eq_ok_iff.mp h
    · exact (isClosed_endOfElements _).via hend (Nat.le_refl _) fun _ _ hx =>
        readFields_cons_eq_ok_iff.mpr (.inl ⟨hms, hx⟩)
    · have hclosed := (isLocal_nextElement (i == 0)).thenClosed
        ((isLocal_readValue v depth value shape steps).thenClosed (isClosed_readFields v depth more fields (i + 1) steps))
      exact hclosed.via hparts (by omega) fun _ _ hx => readFields_cons_eq_ok_iff.mpr (.inr ⟨value, more, hms, hx⟩)
termination_by structural _ _ steps => steps

end

/-! ## Steps

A value of `n` characters takes `3 * n - 2` steps at most, one more where `null` may stand for it. A shape in which
`null` stood for `null` again and again would take more, which no vocabulary has. -/

/-- How often `null` is looked for before a value is read. -/
def Shape.layers {ρ : Type} : Shape ρ → Nat
  | optional inner => inner.layers + 1
  | _ => 0

/-- Whether `null` is looked for at most once before each value. -/
def Shape.isFlat {ρ : Type} : Shape ρ → Bool
  | optional inner => inner.layers == 0 && inner.isFlat
  | list element => element.isFlat
  | table value => value.isFlat
  | _ => true

theorem Shape.layers_le_one {ρ : Type} {shape : Shape ρ} (h : shape.isFlat = true) : shape.layers ≤ 1 := by
  cases shape with
  | optional inner =>
    simp only [isFlat, Bool.and_eq_true, beq_iff_eq] at h
    have hlayers : (optional inner).layers = inner.layers + 1 := rfl
    omega
  | _ => exact Nat.zero_le _

/-- The same of every record of a family of documents. -/
def Vocabulary.IsFlat {ρ : Type} (v : Vocabulary ρ) : Prop := ∀ name, ∀ member ∈ v.members name, member.2.isFlat = true

theorem mem_of_memberShape? {ρ : Type} {key : String} {shape : Shape ρ} {fields : List (String × Shape ρ)}
    (h : memberShape? key fields = some shape) : (key, shape) ∈ fields := by
  induction fields with
  | nil => cases h
  | cons field fields ih =>
    obtain ⟨name, other⟩ := field
    rw [memberShape?] at h
    split at h
    · next hname =>
      obtain rfl := Option.some.inj h
      rw [hname]
      exact List.mem_cons_self ..
    · exact List.mem_cons_of_mem _ (ih h)

theorem Passage.Opens.mono {mark : Char} {depth : Nat} {R Q : Passage} {s rest : List Char} (h : Opens mark depth R s rest)
    (hq : ∀ tail, tail.length + 1 ≤ s.length → R tail rest → Q tail rest) : Opens mark depth Q s rest := by
  obtain ⟨hdepth, tail, htail, hr⟩ := h
  exact ⟨hdepth, tail, htail, hq tail (length_spaced htail) hr⟩

section Budget

variable {ρ : Type} {v : Vocabulary ρ}

mutual

theorem readValue_of_steps (hv : v.IsFlat) {depth : Nat} {j : Json} {s rest : List Char} :
    ∀ {shape : Shape ρ} {steps m : Nat}, shape.isFlat = true → readValue v shape depth s steps = .ok (j, rest) →
      3 * s.length + shape.layers ≤ m + 2 + 3 * rest.length → readValue v shape depth s m = .ok (j, rest)
  | _, 0, _, _, h, _ => by cases h
  | shape, steps + 1, 0, _, h, hm => by
    have hlength := (isLocal_readValue v depth j shape (steps + 1)).length_le h
    omega
  | .text, steps + 1, m + 1, _, h, _ => h
  | .flag, steps + 1, m + 1, _, h, _ => h
  | .count, steps + 1, m + 1, _, h, _ => h
  | .word, steps + 1, m + 1, _, h, _ => h
  | .optional inner, steps + 1, m + 1, hflat, h, hm => by
    obtain hnull | ⟨middle, hmiddle, hhead, hinner⟩ := readValue_optional_eq_ok_iff.mp h
    · exact readValue_optional_eq_ok_iff.mpr (.inl hnull)
    · have hlength := isLocal_skipSpaces.length_le hmiddle
      have hlayers : inner.layers = 0 ∧ inner.isFlat = true := by simpa [Shape.isFlat] using hflat
      rw [Shape.layers] at hm
      -- Nothing is taken here, and the step is the one that the layer allows for.
      refine readValue_optional_eq_ok_iff.mpr (.inr ⟨middle, hmiddle, hhead, ?_⟩)
      exact readValue_of_steps hv hlayers.2 hinner (by omega)
  | .any, steps + 1, m + 1, _, h, hm => by
    obtain ⟨es, hj, hlist⟩ | ⟨ms, hj, hobject⟩ | hscalar := readValue_any_eq_ok_iff.mp h
    · refine readValue_any_eq_ok_iff.mpr (.inl ⟨es, hj, hlist.mono ?_⟩)
      exact fun tail hlength hx => readElements_of_steps hv rfl hx (by omega)
    · refine readValue_any_eq_ok_iff.mpr (.inr (.inl ⟨ms, hj, hobject.mono ?_⟩))
      exact fun tail hlength hx => readTable_of_steps hv rfl hx (by omega)
    · exact readValue_any_eq_ok_iff.mpr (.inr (.inr hscalar))
  | .list element, steps + 1, m + 1, hflat, h, hm => by
    obtain ⟨es, hj, hlist⟩ := readValue_list_eq_ok_iff.mp h
    replace hflat : element.isFlat = true := hflat
    refine readValue_list_eq_ok_iff.mpr ⟨es, hj, hlist.mono ?_⟩
    exact fun tail hlength hx => readElements_of_steps hv hflat hx (by omega)
  | .table value, steps + 1, m + 1, hflat, h, hm => by
    obtain ⟨ms, hj, hobject⟩ := readValue_table_eq_ok_iff.mp h
    replace hflat : value.isFlat = true := hflat
    refine readValue_table_eq_ok_iff.mpr ⟨ms, hj, hobject.mono ?_⟩
    exact fun tail hlength hx => readTable_of_steps hv hflat hx (by omega)
  | .record name, steps + 1, m + 1, _, h, hm => by
    obtain ⟨ms, hj, hlist | hobject⟩ := readValue_record_eq_ok_iff.mp h
    · refine readValue_record_eq_ok_iff.mpr ⟨ms, hj, .inl (hlist.mono ?_)⟩
      exact fun tail hlength hx => readFields_of_steps hv (hv name) hx (by omega)
    · refine readValue_record_eq_ok_iff.mpr ⟨ms, hj, .inr (hobject.mono ?_)⟩
      exact fun tail hlength hx => readMembers_of_steps hv (hv name) hx (by omega)
termination_by structural _ steps => steps

theorem readElements_of_steps (hv : v.IsFlat) {shape : Shape ρ} {depth : Nat} (hflat : shape.isFlat = true) :
    ∀ {es : List Json} {i : Nat} {s rest : List Char} {steps m : Nat},
    readElements v shape i depth s steps = .ok (es, rest) → 3 * s.length ≤ m + 3 * rest.length →
      readElements v shape i depth s m = .ok (es, rest)
  | _, _, _, _, 0, _, h, _ => by cases h
  | es, i, _, _, steps + 1, 0, h, hm => by
    have hlength := (isClosed_readElements v shape depth es i (steps + 1)).isLocal.length_le h
    omega
  | es, i, s, rest, steps + 1, m + 1, h, hm => by
    obtain hend | ⟨element, more, hes, begun, hbegun, tail, hvalue, hmore⟩ := readElements_eq_ok_iff.mp h
    · exact readElements_eq_ok_iff.mpr (.inl hend)
    · have hbegunLength := (isLocal_nextElement (i == 0)).length_le hbegun
      have hvalueLength := (isLocal_readValue v depth element shape steps).length_le hvalue
      have hmoreLength := (isClosed_readElements v shape depth more (i + 1) steps).isLocal.length_le hmore
      have hlayers := Shape.layers_le_one hflat
      -- The elements behind this one take a character at least, so that three of the steps are left for it.
      exact readElements_eq_ok_iff.mpr (.inr ⟨element, more, hes, begun, hbegun, tail,
        readValue_of_steps hv hflat hvalue (by omega), readElements_of_steps hv hflat hmore (by omega)⟩)
termination_by structural _ _ _ _ steps => steps

theorem readTable_of_steps (hv : v.IsFlat) {shape : Shape ρ} {depth : Nat} (hflat : shape.isFlat = true) :
    ∀ {ms : List (String × Json)} {first : Bool} {s rest : List Char} {steps m : Nat},
    readTable v shape first depth s steps = .ok (ms, rest) → 3 * s.length ≤ m + 3 * rest.length →
      readTable v shape first depth s m = .ok (ms, rest)
  | _, _, _, _, 0, _, h, _ => by cases h
  | ms, first, _, _, steps + 1, 0, h, hm => by
    have hlength := (isClosed_readTable v shape depth ms first (steps + 1)).isLocal.length_le h
    omega
  | ms, first, s, rest, steps + 1, m + 1, h, hm => by
    obtain hend | ⟨key, value, more, hms, colon, hkey, begun, hbegun, tail, hvalue, hmore⟩ := readTable_eq_ok_iff.mp h
    · exact readTable_eq_ok_iff.mpr (.inl hend)
    · have hkeyLength := (isClosed_nextKey first key).isLocal.length_le hkey
      have hbegunLength := isClosed_expectColon.isLocal.length_le hbegun
      have hvalueLength := (isLocal_readValue v depth value shape steps).length_le hvalue
      have hmoreLength := (isClosed_readTable v shape depth more false steps).isLocal.length_le hmore
      have hlayers := Shape.layers_le_one hflat
      exact readTable_eq_ok_iff.mpr (.inr ⟨key, value, more, hms, colon, hkey, begun, hbegun, tail,
        readValue_of_steps hv hflat hvalue (by omega), readTable_of_steps hv hflat hmore (by omega)⟩)
termination_by structural _ _ _ _ steps => steps

theorem readMembers_of_steps (hv : v.IsFlat) {fields : List (String × Shape ρ)} {depth : Nat}
    (hflat : ∀ member ∈ fields, member.2.isFlat = true) :
    ∀ {ms : List (String × Json)} {seen : List String} {first : Bool} {s rest : List Char} {steps m : Nat},
    readMembers v fields seen first depth s steps = .ok (ms, rest) → 3 * s.length ≤ m + 3 * rest.length →
      readMembers v fields seen first depth s m = .ok (ms, rest)
  | _, _, _, _, _, 0, _, h, _ => by cases h
  | ms, seen, first, _, _, steps + 1, 0, h, hm => by
    have hlength := (isClosed_readMembers v fields depth ms seen first (steps + 1)).isLocal.length_le h
    omega
  | ms, seen, first, s, rest, steps + 1, m + 1, h, hm => by
    obtain hend | ⟨key, hshape, colon, hkey, begun, hbegun, tail, hskip, hmore⟩ |
      ⟨key, shape, hshape, value, more, hms, colon, hkey, begun, hbegun, tail, hvalue, hmore⟩ :=
      readMembers_eq_ok_iff.mp h
    · exact readMembers_eq_ok_iff.mpr (.inl hend)
    · have hkeyLength := (isClosed_nextKey first key).isLocal.length_le hkey
      have hbegunLength := isClosed_expectColon.isLocal.length_le hbegun
      have hskipLength := isLocal_skipValue.length_le hskip
      exact readMembers_eq_ok_iff.mpr (.inr (.inl ⟨key, hshape, colon, hkey, begun, hbegun, tail, hskip,
        readMembers_of_steps hv hflat hmore (by omega)⟩))
    · have hkeyLength := (isClosed_nextKey first key).isLocal.length_le hkey
      have hbegunLength := isClosed_expectColon.isLocal.length_le hbegun
      have hvalueLength := (isLocal_readValue v depth value shape steps).length_le hvalue
      have hmoreLength := (isClosed_readMembers v fields depth more (key :: seen) false steps).isLocal.length_le hmore
      have hshapeFlat : shape.isFlat = true := hflat _ (mem_of_memberShape? hshape.1)
      have hlayers := Shape.layers_le_one hshapeFlat
      exact readMembers_eq_ok_iff.mpr (.inr (.inr ⟨key, shape, hshape, value, more, hms, colon, hkey, begun, hbegun, tail,
        readValue_of_steps hv hshapeFlat hvalue (by omega), readMembers_of_steps hv hflat hmore (by omega)⟩))
termination_by structural _ _ _ _ _ steps => steps

theorem readFields_of_steps (hv : v.IsFlat) {depth : Nat} :
    ∀ {fields : List (String × Shape ρ)} {ms : List (String × Json)} {i : Nat} {s rest : List Char} {steps m : Nat},
    (∀ member ∈ fields, member.2.isFlat = true) → readFields v fields i depth s steps = .ok (ms, rest) →
      3 * s.length ≤ m + 3 * rest.length → readFields v fields i depth s m = .ok (ms, rest)
  | _, _, _, _, _, 0, _, _, h, _ => by cases h
  | fields, ms, i, _, _, steps + 1, 0, _, h, hm => by
    have hlength := (isClosed_readFields v depth ms fields i (steps + 1)).isLocal.length_le h
    omega
  | [], _, _, _, _, steps + 1, m + 1, _, h, _ => h
  | (field, shape) :: fields, ms, i, s, rest, steps + 1, m + 1, hflat, h, hm => by
    obtain hend | ⟨value, more, hms, begun, hbegun, tail, hvalue, hmore⟩ := readFields_cons_eq_ok_iff.mp h
    · exact readFields_cons_eq_ok_iff.mpr (.inl hend)
    · have hbegunLength := (isLocal_nextElement (i == 0)).length_le hbegun
      have hvalueLength := (isLocal_readValue v depth value shape steps).length_le hvalue
      have hmoreLength := (isClosed_readFields v depth more fields (i + 1) steps).isLocal.length_le hmore
      obtain ⟨hshapeFlat, hothers⟩ := List.forall_mem_cons.mp hflat
      have hlayers : shape.layers ≤ 1 := Shape.layers_le_one hshapeFlat
      exact readFields_cons_eq_ok_iff.mpr (.inr ⟨value, more, hms, begun, hbegun, tail,
        readValue_of_steps hv hshapeFlat hvalue (by omega), readFields_of_steps hv hothers hmore (by omega)⟩)
termination_by structural _ _ _ _ _ steps => steps

end

end Budget

/-! ## Whole documents -/

/-- A record ends with its bracket, and nothing behind it is looked at. -/
theorem isClosed_readFront_record {ρ : Type} {v : Vocabulary ρ} (hv : v.IsFlat) (name : ρ) (j : Json) :
    IsClosed 1 fun s rest => readFront v (.record name) s = .ok (j, rest) := by
  intro s rest h
  obtain ⟨ms, hj, hparts⟩ := readValue_record_eq_ok_iff.mp h
  have hclosed :
      TakesAlways 1 (fun s rest => ∃ steps, readValue v (.record name) maxDepth s steps = .ok (j, rest)) s rest := by
    cases hparts with
    | inl hlist =>
      exact (isClosed_opens _ maxDepth (isClosed_readFields v (maxDepth - 1) ms (v.members name) 0 _)).via hlist (by omega)
        fun _ _ hx => ⟨_, readValue_record_eq_ok_iff.mpr ⟨ms, hj, .inl hx⟩⟩
    | inr hobject =>
      exact (isClosed_opens _ maxDepth (isClosed_readMembers v (v.members name) (maxDepth - 1) ms [] true _)).via hobject
        (by omega) fun _ _ hx => ⟨_, readValue_record_eq_ok_iff.mpr ⟨ms, hj, .inr hx⟩⟩
  obtain ⟨taken, hn, rfl, hagain⟩ := hclosed
  refine ⟨taken, hn, rfl, fun t => ?_⟩
  obtain ⟨steps, hsteps⟩ := hagain t
  have hlayers : (Shape.record name).layers = 0 := rfl
  refine readValue_of_steps hv rfl hsteps ?_
  rw [List.length_append]
  omega

end ModuleScaffold.Json
