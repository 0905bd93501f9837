import ModuleScaffold.Proofs.Syntax.Expression

/-! # Quoted literals

A quoted text without templates. Main statement: where the reader of labels goes behind such a text, so does the
reader of expressions, which looks for templates in it. -/

namespace ModuleScaffold.Hcl.Syntax

/-- A text between quotes in which nothing begins a template. -/
def IsLiteral (s : List Char) : Prop := ∃ inner, s = '"' :: inner ∧ plainString? inner = some []

/-! ## Escapes -/

theorem hexDigits?_append {count value n : Nat} {s rest : List Char} (h : hexDigits? count value s = some (n, rest))
    (more : List Char) : hexDigits? count value (s ++ more) = some (n, rest ++ more) ∧ rest <:+ s := by
  induction count, value, s using hexDigits?.induct with
  | case1 value s =>
    cases h
    exact ⟨rfl, List.suffix_refl _⟩
  | case2 => simp [hexDigits?] at h
  | case3 value count c s d hd ih =>
    rw [hexDigits?, hd] at h
    obtain ⟨hrest, hsuffix⟩ := ih h
    rw [List.cons_append, hexDigits?, hd]
    exact ⟨hrest, hsuffix.trans (List.suffix_cons _ _)⟩
  | case4 value count c s hd =>
    rw [hexDigits?, hd] at h
    cases h

theorem escape?_append {s rest : List Char} (h : escape? s = some rest) (more : List Char) :
    escape? (s ++ more) = some (rest ++ more) ∧ rest <:+ s := by
  cases s with
  | nil => cases h
  | cons c s =>
    rw [escape?] at h
    rw [List.cons_append, escape?]
    split at h
    · next hu =>
      rw [if_pos hu]
      cases hd : hexDigits? (if c = 'u' then 4 else 8) 0 s with
      | none => rw [hd] at h; cases h
      | some p =>
        obtain ⟨n, tail⟩ := p
        obtain ⟨htail, hsuffix⟩ := hexDigits?_append hd more
        rw [hd] at h
        rw [htail]
        simp only at h ⊢
        split at h
        · next hn =>
          cases h
          rw [if_pos hn]
          exact ⟨rfl, hsuffix.trans (List.suffix_cons _ _)⟩
        · cases h
    · next hu =>
      rw [if_neg hu]
      split at h
      · next hc =>
        cases h
        rw [if_pos hc]
        exact ⟨rfl, List.suffix_cons _ _⟩
      · cases h

/-! ## Markers -/

/-- A string that ends has a quote. -/
theorem mem_of_plainStringIn? {s fuel rest : List Char} (h : plainStringIn? s fuel = some rest) : '"' ∈ s := by
  induction fuel generalizing s with
  | nil => cases h
  | cons x fuel ih =>
    unfold plainStringIn? at h
    split at h
    · cases h
    · exact List.mem_cons_self
    · have := ih h
      simp [this]
    · have := ih h
      simp [this]
    · cases h
    · cases h
    · next tail =>
      cases he : escape? tail with
      | none => rw [he] at h; cases h
      | some behind =>
        rw [he] at h
        exact List.mem_cons_of_mem _ ((escape?_append he []).2.mem (ih h))
    · exact List.mem_cons_of_mem _ (ih h)

/-- A character that no marker begins at is read alone. -/
theorem markers_char {c d : Char} {s : List Char} (hopen : d = '\x7b' → c ≠ '$' ∧ c ≠ '%')
    (hescaped : s.head? = some '\x7b' → d = c → c ≠ '$' ∧ c ≠ '%') (level : Nat) (opened : List Open) (n : Nat) :
    markers level opened (c :: d :: s) (n + 1) = some (opened, d :: s) := by
  unfold markers
  split
  · next h => cases h; exact absurd rfl (hescaped rfl rfl).1
  · next h => cases h; exact absurd rfl (hescaped rfl rfl).2
  · next h => cases h; exact absurd rfl (hopen rfl).1
  · next h => cases h; exact absurd rfl (hopen rfl).2
  · next h => cases h; rfl
  · next h => cases h

theorem template_markers {c : Char} (hq : c ≠ '"') (hb : c ≠ '\\') (level : Nat) (opened : List Open) (s : List Char)
    (n : Nat) : template level opened (c :: s) (n + 1) = match markers level opened (c :: s) n with
      | some (opened, rest) => template level opened rest n
      | none => none := by
  refine template.eq_5 level opened (c :: s) n (List.cons_ne_nil c s) (fun rest h => ?_) fun rest h => ?_
  · exact hq (List.cons.inj h).1
  · exact hb (List.cons.inj h).1

/-- A string without templates is read alike where templates are looked for, whatever follows it. -/
theorem template_plain {s fuel rest : List Char} (h : plainStringIn? s fuel = some rest) (level : Nat)
    (more : List Char) :
    Answers (template level [] (s ++ more)) (8 * (s ++ more).length + 3) (some (rest ++ more)) := by
  induction fuel generalizing s with
  | nil => cases h
  | cons x fuel ih =>
    refine .of_succ fun n hn => ?_
    simp only [List.length_append] at hn ih
    unfold plainStringIn? at h
    split at h
    · cases h
    · cases h
      rw [List.cons_append, template]
      rfl
    · simp only [List.length_cons] at hn
      obtain ⟨n, rfl⟩ : ∃ m, n = m + 1 := ⟨n - 1, by omega⟩
      simp only [List.cons_append]
      rw [template_markers (by decide) (by decide), markers]
      exact ih h _ (by omega)
    · simp only [List.length_cons] at hn
      obtain ⟨n, rfl⟩ : ∃ m, n = m + 1 := ⟨n - 1, by omega⟩
      simp only [List.cons_append]
      rw [template_markers (by decide) (by decide), markers]
      exact ih h _ (by omega)
    · cases h
    · cases h
    · next tail =>
      cases he : escape? tail with
      | none => rw [he] at h; cases h
      | some behind =>
        rw [he] at h
        obtain ⟨hescape, hsuffix⟩ := escape?_append he more
        have hlength := hsuffix.length_le
        simp only [List.length_cons] at hn
        rw [List.cons_append, template, hescape]
        exact ih h n (by omega)
    · next c tail hquote hdollar hpercent hopen hopen' hslash =>
      have hnext := mem_of_plainStringIn? h
      match tail, hnext with
      | d :: tail, hnext =>
        have hc : c ≠ '"' := hquote
        have hb : c ≠ '\\' := hslash
        have hhead : (tail ++ more).head? = some '\x7b' → d = c → tail.head? = some '\x7b' := by
          intro hhead hd
          cases tail with
          | nil => exact absurd (hd.symm.trans (List.mem_singleton.mp hnext).symm) hc
          | cons e tail => exact hhead
        simp only [List.length_cons] at hn
        obtain ⟨n, rfl⟩ : ∃ m, n = m + 1 := ⟨n - 1, by omega⟩
        have hread := ih h (n + 1) (by simp only [List.length_cons]; omega)
        simp only [List.cons_append] at hread ⊢
        rw [template_markers hc hb, markers_char]
        · exact hread
        · rintro rfl
          exact ⟨fun hc => hopen _ hc rfl, fun hc => hopen' _ hc rfl⟩
        · intro hbrace hd
          obtain ⟨rest', hrest'⟩ := List.head?_eq_some_iff.mp (hhead hbrace hd)
          subst hd hrest'
          exact ⟨fun hc => hdollar _ hc (by rw [hc]), fun hc => hpercent _ hc (by rw [hc])⟩

theorem IsLiteral.isTerm {s : List Char} (h : IsLiteral s) : IsTerm 0 s := by
  obtain ⟨inner, rfl, hplain⟩ := h
  refine ⟨⟨'"', inner, rfl, by decide⟩, fun level rest n hn => ?_⟩
  rw [plainString?] at hplain
  have hread := template_plain hplain level rest
  simp only [List.cons_append, List.length_cons] at hn ⊢
  obtain ⟨n, rfl⟩ : ∃ m, n = m + 1 := ⟨n - 1, by omega⟩
  rw [term, within_zero]
  exact hread n (by omega)

/-! ## Labels -/

theorem plainStringIn?_word {word : List Char} (hw : ∀ c ∈ word, c ∉ ['"', '$', '%', '\\']) (rest : List Char)
    {fuel : List Char} (hf : word.length < fuel.length) : plainStringIn? (word ++ '"' :: rest) fuel = some rest := by
  induction word generalizing fuel with
  | nil =>
    cases fuel with
    | nil => cases hf
    | cons x fuel => rw [List.nil_append, plainStringIn?]
  | cons c word ih =>
    cases fuel with
    | nil => cases hf
    | cons x fuel =>
      have hc := hw c List.mem_cons_self
      simp only [List.mem_cons, List.not_mem_nil, or_false, not_or] at hc
      rw [List.cons_append, plainStringIn?]
      · exact ih (fun d hd => hw d (List.mem_cons_of_mem _ hd)) (Nat.lt_of_succ_lt_succ hf)
      all_goals simp_all

/-- A name between quotes is a label. -/
theorem plainString?_name {name : List Char} (hn : Text.IsName name) (rest : List Char) :
    plainString? (name ++ '"' :: rest) = some rest := by
  refine plainStringIn?_word (fun c hc hm => ne_of_class (hn.all c hc) (by decide) c hm rfl) rest ?_
  simp only [List.length_append, List.length_cons]
  omega

end ModuleScaffold.Hcl.Syntax
