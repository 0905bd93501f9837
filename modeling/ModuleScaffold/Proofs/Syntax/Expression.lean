import ModuleScaffold.Proofs.Syntax.Gap

/-! # Expressions that are read as a whole

A text is an expression that needs so many brackets when the reader goes behind it where that many may be nested, and
refuses it where fewer may, whatever follows that does not continue it. Every form of expression that a module holds
has a law here; a bracket takes one level of nesting. -/

namespace ModuleScaffold.Hcl.Syntax

/-! ## Enough steps -/

section

variable {α : Type}

/-- The answer with so many steps, and with any more. -/
def Answers (f : Nat → Option α) (steps : Nat) (answer : Option α) : Prop := ∀ n, steps ≤ n → f n = answer

theorem Answers.of_succ {f : Nat → Option α} {steps : Nat} {answer : Option α}
    (h : ∀ n, steps ≤ n → f (n + 1) = answer) : Answers f (steps + 1) answer := by
  intro n hn
  obtain ⟨n, rfl⟩ : ∃ m, n = m + 1 := ⟨n - 1, by omega⟩
  exact h n (by omega)

/-! ## Enough brackets -/

/-- What is answered to a text that needs `need` brackets where `level` may be nested. -/
def within (need level : Nat) (answer : Option α) : Option α := if need ≤ level then answer else none

variable {need level : Nat} {answer : Option α}

theorem within_of_le (h : need ≤ level) : within need level answer = answer := if_pos h

theorem within_of_lt (h : level < need) : within need level answer = none := if_neg (Nat.not_le.mpr h)

@[simp] theorem within_zero : within 0 level answer = answer := within_of_le (Nat.zero_le level)

@[simp] theorem within_succ_zero : within (need + 1) 0 answer = none := within_of_lt (Nat.succ_pos need)

@[simp] theorem within_succ : within (need + 1) (level + 1) answer = within need level answer := by
  simp only [within, Nat.add_le_add_iff_right]

/-- Two parts of a text fit where both do. -/
theorem within_max (m n : Nat) : within (max m n) level answer = within m level (within n level answer) := by
  rcases Nat.lt_or_ge level m with hm | hm
  · rw [within_of_lt (by omega), within_of_lt hm]
  · rw [within_of_le hm]
    simp only [within, Nat.max_le, and_iff_right hm]

end

/-! ## What ends an expression -/

/-- An operand is not continued by this text. -/
structure EndsOperand (multiline : Bool) (rest : List Char) : Prop where
  word : EndsWord rest
  call : ∀ c ∈ rest.head?, c ≠ '(' ∧ c ≠ ':'
  access : ∀ c ∈ (between multiline rest).head?, c ≠ '.' ∧ c ≠ '['

/-- An expression is not continued by this text. -/
structure EndsExpression (multiline : Bool) (rest : List Char) : Prop extends EndsOperand multiline rest where
  operator : operator? (between multiline rest) = none
  condition : (between multiline rest).head? ≠ some '?'

theorem between_blank (multiline : Bool) {c : Char} (hc : isSolid c = true) (s : List Char) :
    between multiline (' ' :: c :: s) = c :: s := by
  cases multiline with
  | true => exact (breaks_blank (c :: s)).trans (breaks_solid hc s)
  | false =>
    simp only [isSolid, isBreak, Bool.and_eq_true, Bool.not_eq_true', Bool.or_eq_false_iff, bne_iff_ne, ne_eq] at hc
    exact gap_blank c hc.1.2 hc.1.1.1.1 s

theorem between_solid (multiline : Bool) {c : Char} (hc : isSolid c = true) (s : List Char) :
    between multiline (c :: s) = c :: s := by
  cases multiline with
  | true => exact breaks_solid hc s
  | false =>
    simp only [isSolid, isBreak, Bool.and_eq_true, Bool.not_eq_true', Bool.or_eq_false_iff, bne_iff_ne, ne_eq] at hc
    exact gap_cons hc.1.2 hc.1.1.1.1 s

theorem EndsExpression.mark (multiline : Bool) {c : Char} (hc : c ∈ [')', ']', ',']) (s : List Char) :
    EndsExpression multiline (c :: s) := by
  have hsolid : isSolid c = true := by
    simp only [List.mem_cons, List.not_mem_nil, or_false] at hc
    rcases hc with rfl | rfl | rfl <;> decide
  have hnext := between_solid multiline hsolid s
  simp only [List.mem_cons, List.not_mem_nil, or_false] at hc
  rcases hc with rfl | rfl | rfl <;>
    exact ⟨⟨.cons (by decide) s, by simp, by simp [hnext]⟩, by rw [hnext]; rfl, by simp [hnext]⟩

theorem EndsExpression.feed (s : List Char) : EndsExpression false ('\n' :: s) := by
  have hnext : between false ('\n' :: s) = '\n' :: s := by
    rw [between, if_neg (by decide), gap_cons (by decide) (by decide)]
  exact ⟨⟨.cons (by decide) s, by simp, by simp [hnext]⟩, by rw [hnext]; rfl, by simp [hnext]⟩

theorem EndsOperand.blank (multiline : Bool) {c : Char} (hc : isSolid c = true) (ha : c ≠ '.' ∧ c ≠ '[')
    (s : List Char) : EndsOperand multiline (' ' :: c :: s) :=
  ⟨.cons (by decide) _, by simp, by simpa [between_blank multiline hc s] using ha⟩

theorem EndsExpression.blank (multiline : Bool) {c : Char} {s : List Char} (hc : isSolid c = true)
    (ha : c ≠ '.' ∧ c ≠ '[' ∧ c ≠ '?') (ho : operator? (c :: s) = none) : EndsExpression multiline (' ' :: c :: s) := by
  have hnext := between_blank multiline hc s
  exact ⟨.blank multiline hc ⟨ha.1, ha.2.1⟩ s, by rw [hnext]; exact ho, by simpa [hnext] using ha.2.2⟩

/-! ## Texts that are read -/

/-- Whether an expression of a module may begin with this character. -/
def opens (c : Char) : Bool := Text.isIdentifierStart c || c == '"' || c == '[' || c == '\x7b'

theorem opens_of_isIdentifierStart {c : Char} (h : Text.isIdentifierStart c = true) : opens c = true := by
  rw [opens, h]
  rfl

theorem isSolid_of_opens {c : Char} (h : opens c = true) : isSolid c = true := by
  simp only [opens, Bool.or_eq_true, beq_iff_eq] at h
  rcases h with ((h | rfl) | rfl) | rfl
  · exact isSolid_of_isIdentifierChar (by rw [Text.isIdentifierChar, h]; rfl)
  all_goals decide

theorem ne_of_opens {c d : Char} (h : opens c = true) (hd : opens d = false) : c ≠ d := by
  rintro rfl
  rw [h] at hd
  cases hd

/-- An expression of a module may begin as this text does. -/
def Opens (s : List Char) : Prop := ∃ c more, s = c :: more ∧ opens c = true

theorem Opens.breaks {s : List Char} (h : Opens s) (rest : List Char) : breaks (s ++ rest) = s ++ rest := by
  obtain ⟨c, more, rfl, hc⟩ := h
  exact breaks_solid (isSolid_of_opens hc) _

theorem Opens.between_blank {s : List Char} (h : Opens s) (multiline : Bool) (rest : List Char) :
    between multiline (' ' :: (s ++ rest)) = s ++ rest := by
  obtain ⟨c, more, rfl, hc⟩ := h
  exact Syntax.between_blank multiline (isSolid_of_opens hc) _

/-- A text of which the expression's reader leaves nothing if it may nest so many brackets, at the front of every text
that does not continue it. -/
structure IsExpression (need : Nat) (s : List Char) : Prop where
  head : Opens s
  reads : ∀ multiline level rest, EndsExpression multiline rest →
    Answers (expression multiline level (s ++ rest)) (8 * (s ++ rest).length + 2) (within need level (some rest))

structure IsOperand (need : Nat) (s : List Char) : Prop where
  head : Opens s
  reads : ∀ multiline level rest, EndsOperand multiline rest →
    Answers (operand multiline level (s ++ rest)) (8 * (s ++ rest).length + 1) (within need level (some rest))

/-- A bracketed text, which nothing can continue. -/
structure IsTerm (need : Nat) (s : List Char) : Prop where
  head : Opens s
  reads : ∀ level rest, Answers (term level (s ++ rest)) (8 * (s ++ rest).length) (within need level (some rest))

theorem accesses_ends {multiline : Bool} {rest : List Char} (h : EndsOperand multiline rest) (level n : Nat) :
    accesses multiline level rest (n + 1) = some rest := by
  have hnext := h.access
  unfold accesses
  split
  · rfl
  · next h => rw [h] at hnext; exact absurd rfl (hnext '.' rfl).1
  · next h => rw [h] at hnext; exact absurd rfl (hnext '[' rfl).2
  · rfl

theorem operand_opens {c : Char} (hc : opens c = true) (multiline : Bool) (level : Nat) (s : List Char) (n : Nat) :
    operand multiline level (c :: s) (n + 1) = match term level (c :: s) n with
      | some rest => accesses multiline level rest n
      | none => none := by
  refine operand.eq_4 multiline level (c :: s) n (fun rest h => ?_) fun rest h => ?_
  all_goals
    cases h
    exact absurd hc (by decide)

theorem IsTerm.isOperand {need : Nat} {s : List Char} (h : IsTerm need s) : IsOperand need s := by
  refine ⟨h.head, fun multiline level rest hr => .of_succ fun n hn => ?_⟩
  obtain ⟨c, more, rfl, hc⟩ := h.head
  rw [List.cons_append, operand_opens hc]
  rw [List.cons_append] at hn
  have hterm := h.reads level rest n hn
  rw [List.cons_append] at hterm
  obtain ⟨n, rfl⟩ : ∃ m, n = m + 1 := ⟨n - 1, by simp only [List.length_cons] at hn; omega⟩
  rw [hterm]
  rcases Nat.lt_or_ge level need with hl | hl
  · rw [within_of_lt hl]
  · rw [within_of_le hl]
    exact accesses_ends hr level n

theorem IsOperand.isExpression {need : Nat} {s : List Char} (h : IsOperand need s) : IsExpression need s := by
  refine ⟨h.head, fun multiline level rest hr => .of_succ fun n hn => ?_⟩
  have hoperand := h.reads multiline level rest hr.toEndsOperand n hn
  rw [expression, hoperand]
  rcases Nat.lt_or_ge level need with hl | hl
  · rw [within_of_lt hl]
  · rw [within_of_le hl]
    simp only [hr.operator]
    split
    · next heq => exact absurd (by rw [heq]; rfl) hr.condition
    · rfl

theorem IsTerm.isExpression {need : Nat} {s : List Char} (h : IsTerm need s) : IsExpression need s :=
  h.isOperand.isExpression

/-! ## Paths -/

theorem not_isDigit {c : Char} (hc : Text.isIdentifierStart c = true) : Text.isDigit c = false := by
  have hall : ∀ n ∈ List.range' 48 10, Text.isIdentifierStart (Char.ofNat n) = false := by decide
  cases hd : Text.isDigit c with
  | false => rfl
  | true =>
    simp only [Text.isDigit, Bool.and_eq_true, decide_eq_true_eq] at hd
    have hlow : 48 ≤ c.toNat := hd.1
    have hhigh : c.toNat ≤ 57 := hd.2
    have hstart := hall c.toNat (List.mem_range'_1.mpr (by omega))
    rw [Char.ofNat_toNat, hc] at hstart
    cases hstart

theorem term_word {c : Char} (hc : Text.isIdentifierStart c = true) (level : Nat) (s : List Char) (n : Nat) :
    term level (c :: s) (n + 1) = match identifier? (c :: s) with
      | some rest => call level rest n
      | none => none := by
  have hne : ∀ d ∈ ['"', '[', '\x7b', '(', '<'], c ≠ d := ne_of_class hc (by decide)
  simp only [List.mem_cons, List.not_mem_nil, or_false, forall_eq_or_imp, forall_eq] at hne
  rw [term]
  · exact if_neg (by simp [not_isDigit hc])
  all_goals simp_all

theorem call_ends {rest : List Char} (h : ∀ c ∈ rest.head?, c ≠ '(' ∧ c ≠ ':') (level n : Nat) :
    call level rest (n + 1) = some rest := by
  unfold call
  split
  · exact absurd rfl (h ':' rfl).2
  · exact absurd rfl (h '(' rfl).1
  · rfl

/-- What follows a name when parts of its value are named. -/
def accessText : List (List Char) → List Char
  | [] => []
  | name :: names => '.' :: (name ++ accessText names)

theorem endsWord_accessText (names : List (List Char)) {rest : List Char} (h : EndsWord rest) :
    EndsWord (accessText names ++ rest) := by
  cases names with
  | nil => exact h
  | cons name names => exact .cons (by decide) _

theorem accesses_name {name rest : List Char} (hn : Text.isIdentifier name = true) (hr : EndsWord rest)
    (multiline : Bool) (level n : Nat) :
    accesses multiline level ('.' :: (name ++ rest)) (n + 1) = accesses multiline level rest n := by
  have hname := identifier?_append hn hr
  obtain ⟨c, more, rfl, hc, -⟩ := isIdentifier_cons hn
  rw [List.cons_append] at hname ⊢
  have hopens := opens_of_isIdentifierStart hc
  have hsolid := isSolid_of_opens hopens
  have hstar : c ≠ '*' := ne_of_opens hopens (by decide)
  have hpoint : c ≠ '.' := ne_of_opens hopens (by decide)
  have hindex : legacyIndex? (c :: (more ++ rest)) = none := by
    unfold legacyIndex?
    split
    · next h => cases h; exact absurd hc (by decide)
    · simp [not_isDigit hc]
  rw [accesses, between_solid multiline (by decide)]
  split
  · next h => cases h; exact absurd rfl hpoint
  · next rest' _ h =>
    cases h
    rw [breaks_solid hsolid]
    split
    · next h => cases h; exact absurd rfl hstar
    · rw [hindex, Option.orElse_none, hname]
  · next h => cases h
  · next _ hne _ => exact absurd rfl (hne _)

/-- Names that parts of a value are named by are read one by one. -/
theorem accesses_names {names : List (List Char)} (hnames : ∀ name ∈ names, Text.isIdentifier name = true)
    {multiline : Bool} {rest : List Char} (hr : EndsOperand multiline rest) (level : Nat) :
    Answers (accesses multiline level (accessText names ++ rest)) (8 * (accessText names ++ rest).length + 3)
      (some rest) := by
  induction names with
  | nil =>
    refine .of_succ fun n _ => ?_
    rw [accessText, List.nil_append, accesses_ends hr]
  | cons name names ih =>
    refine .of_succ fun n hn => ?_
    have hrest := ih (fun other h => hnames other (List.mem_cons_of_mem _ h))
    rw [accessText, List.cons_append, List.append_assoc] at hn ⊢
    rw [accesses_name (hnames name List.mem_cons_self) (endsWord_accessText names hr.word)]
    apply hrest n
    simp only [List.length_cons, List.length_append] at hn ⊢
    omega

/-- A name, and names of parts of its value behind it. -/
theorem isOperand_path (name : List Char) (names : List (List Char))
    (hn : Text.isIdentifier name = true) (hnames : ∀ name ∈ names, Text.isIdentifier name = true) :
    IsOperand 0 (name ++ accessText names) := by
  have hname := hn
  obtain ⟨c, more, rfl, hc, -⟩ := isIdentifier_cons hname
  have hopens := opens_of_isIdentifierStart hc
  refine ⟨⟨c, more ++ accessText names, rfl, hopens⟩, fun multiline level rest hr => .of_succ fun n hn => ?_⟩
  have hword := identifier?_append hname (endsWord_accessText names hr.word)
  have haccesses := accesses_names hnames hr level
  rw [List.append_assoc, List.cons_append] at hn ⊢
  rw [List.cons_append] at hword
  have hcall : ∀ d ∈ (accessText names ++ rest).head?, d ≠ '(' ∧ d ≠ ':' := by
    cases names with
    | nil => exact hr.call
    | cons name names => simp [accessText]
  simp only [List.length_cons, List.length_append] at hn haccesses
  obtain ⟨n, rfl⟩ : ∃ m, n = m + 2 := ⟨n - 2, by omega⟩
  rw [operand_opens hopens, term_word hc, hword, within_zero]
  simp only [call_ends hcall]
  exact haccesses _ (by omega)

theorem isOperand_name {name : List Char} (hn : Text.isIdentifier name = true) : IsOperand 0 name := by
  have hpath := isOperand_path name [] hn (by simp)
  rwa [accessText, List.append_nil] at hpath

/-! ## Calls -/

/-- The arguments of a call with the parenthesis behind them. -/
structure IsArguments (need : Nat) (s : List Char) : Prop where
  head : ∃ c more, s = c :: more ∧ isSolid c = true
  reads : ∀ level rest,
    Answers (arguments level (s ++ rest)) (8 * (s ++ rest).length + 3) (within need level (some rest))

theorem arguments_opens {c : Char} (hc : opens c = true) (level : Nat) (s : List Char) (n : Nat) :
    arguments level (c :: s) (n + 1) = match expression true level (c :: s) n with
      | none => none
      | some rest =>
        match breaks rest with
        | ')' :: rest => some rest
        | ',' :: rest => arguments level (breaks rest) n
        | '.' :: '.' :: '.' :: rest =>
          match breaks rest with
          | ')' :: rest => some rest
          | _ => none
        | _ => none := by
  refine arguments.eq_3 level (c :: s) n fun rest h => ?_
  cases h
  exact absurd hc (by decide)

theorem IsExpression.last {need : Nat} {s : List Char} (h : IsExpression need s) :
    IsArguments need (s ++ [')']) := by
  obtain ⟨c, more, rfl, hc⟩ := h.head
  refine ⟨⟨c, _, rfl, isSolid_of_opens hc⟩, fun level rest => .of_succ fun n hn => ?_⟩
  have hread := h.reads true level (')' :: rest) (.mark true (by decide) rest) n
    (by simp only [List.length_append, List.length_cons, List.length_nil] at hn ⊢; omega)
  rw [List.append_assoc, List.singleton_append, List.cons_append] at *
  rw [arguments_opens hc, hread]
  rcases Nat.lt_or_ge level need with hl | hl
  · rw [within_of_lt hl, within_of_lt hl]
  · simp only [within_of_le hl, breaks_solid (show isSolid ')' = true by decide)]

theorem IsExpression.and {need more : Nat} {s args : List Char} (h : IsExpression need s) (ha : IsArguments more args) :
    IsArguments (max need more) (s ++ ',' :: ' ' :: args) := by
  obtain ⟨c, front, rfl, hc⟩ := h.head
  obtain ⟨d, others, rfl, hd⟩ := ha.head
  refine ⟨⟨c, _, rfl, isSolid_of_opens hc⟩, fun level rest => .of_succ fun n hn => ?_⟩
  have hread := h.reads true level (',' :: ' ' :: (d :: others ++ rest)) (.mark true (by decide) _) n
    (by simp only [List.length_append, List.length_cons] at hn ⊢; omega)
  have hargs := ha.reads level rest n (by simp only [List.length_append, List.length_cons] at hn ⊢; omega)
  simp only [List.append_assoc, List.cons_append] at *
  rw [arguments_opens hc, hread, within_max]
  rcases Nat.lt_or_ge level need with hl | hl
  · rw [within_of_lt hl, within_of_lt hl]
  · simp only [within_of_le hl, breaks_solid (show isSolid ',' = true by decide), breaks_blank, breaks_solid hd]
    exact hargs

theorem isTerm_call {need : Nat} (name : List Char) {args : List Char} (hn : Text.isIdentifier name = true)
    (h : IsArguments need args) : IsTerm (need + 1) (name ++ '(' :: args) := by
  have hname := hn
  obtain ⟨c, more, rfl, hc, -⟩ := isIdentifier_cons hname
  obtain ⟨d, others, rfl, hd⟩ := h.head
  refine ⟨⟨c, _, rfl, opens_of_isIdentifierStart hc⟩, fun level rest n hn => ?_⟩
  have hword : identifier? (c :: more ++ '(' :: (d :: others ++ rest)) = some ('(' :: (d :: others ++ rest)) :=
    identifier?_append hname (.cons (by decide) _)
  have hargs := fun inner => h.reads inner rest
  simp only [List.append_assoc, List.cons_append, List.length_cons, List.length_append] at *
  obtain ⟨n, rfl⟩ : ∃ m, n = m + 2 := ⟨n - 2, by omega⟩
  rw [term_word hc, hword]
  simp only []
  cases level with
  | zero => rw [call, if_pos rfl, within_succ_zero]
  | succ inner =>
    rw [call, if_neg (Nat.succ_ne_zero inner), breaks_solid hd, within_succ]
    exact hargs inner n (by omega)

/-! ## Lists -/

theorem isTerm_noElements : IsTerm 1 ['[', ']'] := by
  refine ⟨⟨'[', [']'], rfl, by decide⟩, fun level rest n hn => ?_⟩
  simp only [List.length_append, List.length_cons] at hn
  obtain ⟨n, rfl⟩ : ∃ m, n = m + 2 := ⟨n - 2, by omega⟩
  have hclose : breaks (']' :: rest) = ']' :: rest := breaks_solid (by decide) rest
  have hfor : keyword? ['f', 'o', 'r'] (']' :: rest) = none := keyword?_cons (by decide) _ _
  rw [List.cons_append, List.singleton_append, term]
  cases level with
  | zero => rw [if_pos rfl, within_succ_zero]
  | succ inner =>
    rw [if_neg (Nat.succ_ne_zero inner), hclose, hfor, within_succ, within_zero]
    simp only []
    rw [elements]

/-- A list of one element, which must not be taken for the beginning of a loop. -/
theorem IsExpression.isTerm_element {need : Nat} {s : List Char} (h : IsExpression need s)
    (hfor : ∀ rest, EndsWord rest → keyword? ['f', 'o', 'r'] (s ++ rest) = none) :
    IsTerm (need + 1) ('[' :: (s ++ [']'])) := by
  obtain ⟨c, more, rfl, hc⟩ := h.head
  refine ⟨⟨'[', _, rfl, by decide⟩, fun level rest n hn => ?_⟩
  have hkeyword := hfor (']' :: rest) (.cons (by decide) rest)
  have hread := fun inner => h.reads true inner (']' :: rest) (.mark true (by decide) rest)
  simp only [List.append_assoc, List.cons_append, List.nil_append, List.length_append, List.length_cons] at *
  obtain ⟨n, rfl⟩ : ∃ m, n = m + 2 := ⟨n - 2, by omega⟩
  rw [term]
  cases level with
  | zero => rw [if_pos rfl, within_succ_zero]
  | succ inner =>
    rw [if_neg (Nat.succ_ne_zero inner), breaks_solid (isSolid_of_opens hc), hkeyword, within_succ]
    simp only []
    rw [elements, Nat.add_sub_cancel, hread inner n (by omega)]
    · rcases Nat.lt_or_ge inner need with hl | hl
      · rw [within_of_lt hl, within_of_lt hl]
      · simp only [within_of_le hl, breaks_solid (show isSolid ']' = true by decide)]
    · rintro rest h
      cases h
      exact absurd hc (by decide)

/-! ## Conditions -/

theorem IsOperand.condition {k l m : Nat} {test yes no : List Char} (ht : IsOperand k test) (hy : IsExpression l yes)
    (hn : IsExpression m no) :
    IsExpression (max k (max l m)) (test ++ " ? ".toList ++ yes ++ " : ".toList ++ no) := by
  refine ⟨?_, fun multiline level rest hr => .of_succ fun n hsteps => ?_⟩
  · obtain ⟨c, more, rfl, hc⟩ := ht.head
    exact ⟨c, _, rfl, hc⟩
  · have htext : (test ++ " ? ".toList ++ yes ++ " : ".toList ++ no) ++ rest
        = test ++ ' ' :: '?' :: ' ' :: (yes ++ ' ' :: ':' :: ' ' :: (no ++ rest)) := by simp
    have htest := ht.reads multiline level (' ' :: '?' :: ' ' :: (yes ++ ' ' :: ':' :: ' ' :: (no ++ rest)))
      (.blank multiline (by decide) (by decide) _) n
    have hyes := hy.reads multiline level (' ' :: ':' :: ' ' :: (no ++ rest))
      (.blank multiline (by decide) (by decide) rfl) n
    have hno := hn.reads multiline level rest hr n
    rw [htext] at hsteps ⊢
    simp only [List.length_append, List.length_cons] at hsteps htest hyes hno
    have hmark : ∀ s, operator? ('?' :: s) = none := fun _ => rfl
    rw [expression, htest (by omega), within_max, within_max]
    rcases Nat.lt_or_ge level k with hk | hk
    · rw [within_of_lt hk, within_of_lt hk]
    rw [within_of_le hk, within_of_le hk]
    simp only [between_blank multiline (show isSolid '?' = true by decide), hmark, hy.head.between_blank]
    rw [hyes (by omega)]
    rcases Nat.lt_or_ge level l with hl | hl
    · rw [within_of_lt hl, within_of_lt hl]
    rw [within_of_le hl, within_of_le hl]
    simp only [between_blank multiline (show isSolid ':' = true by decide), hn.head.between_blank]
    exact hno (by omega)

/-! ## Loops -/

/-- A text behind the braces of an object: its members and the closing brace. -/
structure IsMembers (need : Nat) (s : List Char) : Prop where
  noLoop : ∀ rest, keyword? ['f', 'o', 'r'] (breaks (s ++ rest)) = none
  reads : ∀ level rest,
    Answers (members level [] (s ++ rest)) (8 * (s ++ rest).length + 3) (within need level (some rest))

theorem IsMembers.isTerm {need : Nat} {s : List Char} (h : IsMembers need s) : IsTerm (need + 1) ('\x7b' :: s) := by
  refine ⟨⟨'\x7b', s, rfl, by decide⟩, fun level rest n hn => ?_⟩
  simp only [List.cons_append, List.length_cons] at hn ⊢
  obtain ⟨n, rfl⟩ : ∃ m, n = m + 1 := ⟨n - 1, by omega⟩
  rw [term]
  cases level with
  | zero => rw [if_pos rfl, within_succ_zero]
  | succ inner =>
    rw [if_neg (Nat.succ_ne_zero inner), h.noLoop, within_succ]
    exact h.reads inner rest n (by omega)

theorem forNames?_one {name : List Char} (hn : Text.isIdentifier name = true) (rest : List Char) :
    forNames? (' ' :: (name ++ " in ".toList ++ rest)) = some (' ' :: rest) := by
  have htext : name ++ " in ".toList ++ rest = name ++ ' ' :: (['i', 'n'] ++ ' ' :: rest) := by simp
  have hname : breaks (' ' :: (name ++ ' ' :: (['i', 'n'] ++ ' ' :: rest)))
      = name ++ ' ' :: (['i', 'n'] ++ ' ' :: rest) := by
    obtain ⟨c, more, rfl, hc, -⟩ := isIdentifier_cons hn
    exact (breaks_blank _).trans (breaks_solid (isSolid_of_opens (opens_of_isIdentifierStart hc)) _)
  have hin : breaks (' ' :: (['i', 'n'] ++ ' ' :: rest)) = ['i', 'n'] ++ ' ' :: rest :=
    (breaks_blank _).trans (breaks_solid (by decide) _)
  rw [forNames?, htext, hname, identifier?_append hn (.cons (by decide) _)]
  simp only [hin]
  exact keyword?_self ['i', 'n'] (.cons (by decide) _)

theorem forCollection_one {need : Nat} {name collection value : List Char} (hn : Text.isIdentifier name = true)
    (hc : IsExpression need collection) (hv : Opens value) (level : Nat) (rest : List Char) :
    Answers (forCollection level (' ' :: (name ++ " in ".toList ++ (collection ++ ' ' :: ':' :: ' ' :: (value ++ rest)))))
      (8 * (name ++ " in ".toList ++ (collection ++ ' ' :: ':' :: ' ' :: (value ++ rest))).length + 3)
      (within need level (some (value ++ rest))) := by
  refine .of_succ fun n hsteps => ?_
  have hread := hc.reads true level (' ' :: ':' :: ' ' :: (value ++ rest)) (.blank true (by decide) (by decide) rfl) n
    (by simp only [List.length_append, List.length_cons] at hsteps ⊢; omega)
  rw [forCollection, forNames?_one hn]
  simp only [breaks_blank, hc.head.breaks, hread]
  rcases Nat.lt_or_ge level need with hl | hl
  · rw [within_of_lt hl, within_of_lt hl]
  · simp only [within_of_le hl, breaks_blank, breaks_solid (show isSolid ':' = true by decide), hv.breaks]

section

variable {k l m : Nat} {name collection key value : List Char}

/-- An object behind its `for`, and what follows the object. -/
def loopText (name collection key value rest : List Char) : List Char :=
  name ++ " in ".toList ++ (collection ++ ' ' :: ':' :: ' ' :: (key ++ ' ' :: '=' :: '>' :: ' ' ::
    (value ++ ' ' :: '\x7d' :: rest)))

theorem forObject_one (hn : Text.isIdentifier name = true) (hc : IsExpression k collection) (hk : IsExpression l key)
    (hv : IsExpression m value) (level : Nat) (rest : List Char) :
    Answers (forObject level (' ' :: loopText name collection key value rest))
      (8 * (loopText name collection key value rest).length + 4) (within (max k (max l m)) level (some rest)) := by
  unfold loopText
  refine .of_succ fun n hsteps => ?_
  have hcollection := forCollection_one hn hc hk.head level (' ' :: '=' :: '>' :: ' ' :: (value ++ ' ' :: '\x7d' :: rest)) n
  have hkey := hk.reads true level (' ' :: '=' :: '>' :: ' ' :: (value ++ ' ' :: '\x7d' :: rest))
    (.blank true (by decide) (by decide) rfl) n
  have hvalue := hv.reads true level (' ' :: '\x7d' :: rest) (.blank true (by decide) (by decide) rfl) n
  have hif : keyword? ['i', 'f'] ('\x7d' :: rest) = none := keyword?_cons (by decide) _ _
  simp only [List.length_append, List.length_cons] at hsteps hcollection hkey hvalue
  rw [forObject, hcollection (by omega), within_max, within_max]
  rcases Nat.lt_or_ge level k with hfirst | hfirst
  · rw [within_of_lt hfirst, within_of_lt hfirst]
  rw [within_of_le hfirst, within_of_le hfirst]
  simp only []
  rw [hkey (by omega)]
  rcases Nat.lt_or_ge level l with hsecond | hsecond
  · rw [within_of_lt hsecond, within_of_lt hsecond]
  rw [within_of_le hsecond, within_of_le hsecond]
  simp only [breaks_blank, breaks_solid (show isSolid '=' = true by decide), hv.head.breaks]
  rw [hvalue (by omega)]
  rcases Nat.lt_or_ge level m with hthird | hthird
  · rw [within_of_lt hthird, within_of_lt hthird]
  rw [within_of_le hthird, within_of_le hthird]
  simp only [breaks_blank, breaks_solid (show isSolid '\x7d' = true by decide)]
  obtain ⟨n, rfl⟩ : ∃ j, n = j + 1 := ⟨n - 1, by omega⟩
  change forEnd level '\x7d' ('\x7d' :: rest) (n + 1) = some rest
  rw [forEnd]
  simp only [breaks_solid (show isSolid '\x7d' = true by decide), hif]
  exact Text.after?_eq_some_iff.mpr rfl

/-- An object that is made by a loop over the elements of a collection. -/
theorem isTerm_loop (hn : Text.isIdentifier name = true) (hc : IsExpression k collection) (hk : IsExpression l key)
    (hv : IsExpression m value) :
    IsTerm (max k (max l m) + 1) ("\x7b for ".toList ++ name ++ " in ".toList ++ collection ++ " : ".toList ++ key
      ++ " => ".toList ++ value ++ " \x7d".toList) := by
  refine ⟨⟨'\x7b', _, rfl, by decide⟩, fun level rest n hsteps => ?_⟩
  have htext : ("\x7b for ".toList ++ name ++ " in ".toList ++ collection ++ " : ".toList ++ key
      ++ " => ".toList ++ value ++ " \x7d".toList) ++ rest
      = '\x7b' :: ' ' :: (['f', 'o', 'r'] ++ ' ' :: loopText name collection key value rest) := by simp [loopText]
  have hfor : breaks (' ' :: (['f', 'o', 'r'] ++ ' ' :: loopText name collection key value rest))
      = ['f', 'o', 'r'] ++ ' ' :: loopText name collection key value rest :=
    (breaks_blank _).trans (breaks_solid (by decide) _)
  rw [htext] at hsteps ⊢
  simp only [List.length_append, List.length_cons] at hsteps
  obtain ⟨n, rfl⟩ : ∃ m, n = m + 1 := ⟨n - 1, by omega⟩
  rw [term]
  cases level with
  | zero => rw [if_pos rfl, within_succ_zero]
  | succ inner =>
    rw [if_neg (Nat.succ_ne_zero inner), hfor, keyword?_self _ (.cons (by decide) _), within_succ]
    exact forObject_one hn hc hk hv inner rest n (by omega)

end

end ModuleScaffold.Hcl.Syntax
