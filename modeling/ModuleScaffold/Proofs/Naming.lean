import ModuleScaffold.Naming
import ModuleScaffold.Proofs.Text.Identifier

/-! # Characters of variable names

A plural is put together from letters of the word and from those of the rules. Main statement: the name of the
variable of a resource has characters of identifiers only. -/

namespace ModuleScaffold.Naming

theorem afterLetters?_suffix {letters : List Letter} {s rest : List Char} (h : afterLetters? letters s = some rest) :
    rest <:+ s := by
  induction letters generalizing s with
  | nil =>
    cases h
    exact List.suffix_refl _
  | cons l letters ih =>
    cases s with
    | nil => cases h
    | cons c s =>
      rw [afterLetters?] at h
      split at h
      · exact (ih h).trans (List.suffix_cons c s)
      · cases h

/-- A rule keeps characters of the word only. -/
theorem mem_of_kept? {letters : List Letter} {ending reversed kept : List Char}
    (h : kept? letters ending reversed = some kept) : ∀ c ∈ kept, c ∈ reversed := by
  unfold kept? at h
  split at h
  · cases h
  · next body hbody =>
    rw [Text.after?_eq_some_iff] at hbody
    split at h
    · cases h
    · next before hbefore =>
      cases h
      intro c hc
      rw [hbody]
      apply List.mem_append_right
      rcases List.mem_append.mp hc with hc | hc
      · exact List.mem_of_mem_take hc
      · exact (afterLetters?_suffix hbefore).mem ((List.takeWhile_sublist _).mem hc)

theorem Rule.mem_of_replace? {r : Rule} {word other : List Char} (h : r.replace? word = some other) :
    ∀ c ∈ other, c ∈ word ∨ c ∈ r.replacement := by
  obtain ⟨kept, hkept, rfl⟩ := Option.map_eq_some_iff.mp h
  obtain ⟨letters, -, hkept⟩ := List.mem_flatMap.mp (List.mem_of_mem_head? hkept)
  obtain ⟨ending, -, hkept⟩ := List.mem_filterMap.mp hkept
  intro c hc
  rcases List.mem_append.mp hc with hc | hc
  · exact Or.inl (List.mem_reverse.mp (mem_of_kept? hkept c (List.mem_reverse.mp hc)))
  · exact Or.inr hc

theorem isIdentifierChar_irregular :
    ∀ e ∈ irregular, ∀ c ∈ e.2.toList, Text.isIdentifierChar c = true := by
  have hall : (irregular.all fun e => e.2.toList.all Text.isIdentifierChar) = true := by decide
  exact fun e he => List.all_eq_true.mp (List.all_eq_true.mp hall e he)

theorem isIdentifierChar_replacement :
    ∀ r ∈ rules, ∀ c ∈ r.replacement, Text.isIdentifierChar c = true := by
  have hall : (rules.all fun r => r.replacement.all Text.isIdentifierChar) = true := by decide
  exact fun r hr => List.all_eq_true.mp (List.all_eq_true.mp hall r hr)

theorem isIdentifierChar_plural {word : String} (h : ∀ c ∈ word.toList, Text.isIdentifierChar c = true) :
    ∀ c ∈ (plural word).toList, Text.isIdentifierChar c = true := by
  unfold plural
  split
  · exact h
  · split
    · next other hother =>
      obtain ⟨before, after, hsplit, -⟩ := List.lookup_eq_some_iff.mp hother
      exact isIdentifierChar_irregular (word, other) (by rw [hsplit]; simp)
    · split
      · next other hother =>
        obtain ⟨r, hr, hreplace⟩ := List.exists_of_findSome?_eq_some hother
        intro c hc
        rw [String.toList_ofList] at hc
        rcases Rule.mem_of_replace? hreplace c hc with hc | hc
        · exact h c hc
        · exact isIdentifierChar_replacement r (List.mem_reverse.mp hr) c hc
      · intro c hc
        rw [String.toList_append] at hc
        rcases List.mem_append.mp hc with hc | hc
        · exact h c hc
        · rw [List.mem_singleton.mp hc]
          decide

/-- The name of the variable of an identifier has characters of identifiers only. -/
theorem isIdentifierChar_variableName {type : String} (h : Text.isIdentifier type.toList = true) :
    ∀ c ∈ (variableName type).toList, Text.isIdentifierChar c = true := by
  have hall := (Text.IsName.of_isIdentifier h).all
  unfold variableName
  split
  · next provider c rest hcut =>
    obtain ⟨hsplit, -⟩ := Text.splitAt?_eq_some hcut
    apply isIdentifierChar_plural
    intro x hx
    rw [String.toList_ofList] at hx
    apply hall
    rw [hsplit]
    exact List.mem_append_right _ (List.mem_cons_of_mem _ hx)
  · exact hall

theorem not_mem_variableName {type : String} (h : Text.isIdentifier type.toList = true) (mark : Char)
    (hm : Text.isIdentifierChar mark = false) : mark ∉ (variableName type).toList := by
  intro hmem
  rw [isIdentifierChar_variableName h mark hmem] at hm
  cases hm

end ModuleScaffold.Naming
