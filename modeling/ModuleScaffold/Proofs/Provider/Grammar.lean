import ModuleScaffold.Arguments
import ModuleScaffold.Proofs.Text.Identifier
import ModuleScaffold.Proofs.Text.Pieces
import Mathlib.Data.List.Basic

/-! # The grammar of provider arguments

An argument names a provider and may constrain its version. The grammar knows seven operators, of which the reader
takes six: the exclamation mark is none of the characters that it lets pass. Main statement: the arguments that are
read are those of the grammar that do not use the seventh. -/

namespace ModuleScaffold.Provider

/-! ## The grammar -/

/-- The ways to compare a version with the one of a constraint. -/
inductive Operator where
  | atLeast | atMost | above | below | unequal | compatible | equal
  deriving DecidableEq, Repr

/-- An operator as it is written. -/
def Operator.text : Operator → List Char
  | atLeast => ['>', '=']
  | atMost => ['<', '=']
  | above => ['>']
  | below => ['<']
  | unequal => ['!', '=']
  | compatible => ['~', '>']
  | equal => ['=']

/-- One constraint: a version of one to three numbers, with an operator or without one. -/
structure Constraint where
  operator : Option Operator
  groups : List (List Char)
  groups_ne_nil : groups ≠ []
  length_groups : groups.length ≤ 3
  digits : ∀ g ∈ groups, g ≠ [] ∧ ∀ c ∈ g, Text.isDigit c = true

/-- Spaces, or nothing. -/
def IsGap (s : List Char) : Prop := ∀ c ∈ s, c = ' '

namespace Constraint

/-- The version of a constraint as it is written. -/
def version (c : Constraint) : List Char := List.intercalate ['.'] c.groups

/-- The operator of a constraint as it is written. -/
def comparison (c : Constraint) : List Char := c.operator.elim [] Operator.text

/-- A text that writes a constraint, with spaces around it and between its operator and its version. -/
def Writes (c : Constraint) (s : List Char) : Prop :=
  ∃ before between after, IsGap before ∧ IsGap between ∧ IsGap after ∧
    s = before ++ (c.comparison ++ between ++ c.version) ++ after

end Constraint

/-- A text that writes one constraint or several with commas between them. -/
inductive WritesAll : List Constraint → List Char → Prop
  | one {c : Constraint} {s : List Char} (h : c.Writes s) : WritesAll [c] s
  | more {c : Constraint} {s : List Char} {cs : List Constraint} {rest : List Char} (h : c.Writes s)
    (hrest : WritesAll cs rest) : WritesAll (c :: cs) (s ++ ',' :: rest)

/-- A name of a provider or of its owner. -/
def IsPart (s : List Char) : Prop :=
  s ≠ [] ∧ ∀ c ∈ s, Text.isLetter c = true ∨ Text.isDigit c = true ∨ c = '_' ∨ c = '-'

/-- The provider that an argument of the grammar names, with the constraints that it writes. -/
inductive Names : List Char → List Constraint → Provider → Prop
  | unconstrained {owner name : List Char} (ho : IsPart owner) (hn : IsPart name) :
    Names (owner ++ '/' :: name) []
      ⟨Text.lower (String.ofList owner), Text.lower (String.ofList name), ">= 0"⟩
  | constrained {owner name text : List Char} {cs : List Constraint} (ho : IsPart owner) (hn : IsPart name)
    (hc : WritesAll cs text) :
    Names (owner ++ '/' :: name ++ ':' :: text) cs
      ⟨Text.lower (String.ofList owner), Text.lower (String.ofList name), String.ofList (Text.trim text)⟩

/-! ## Names -/

theorem isName_iff (s : List Char) : isName s = true ↔ IsPart s := by
  simp [isName, IsPart, isNameChar, or_assoc]

theorem IsPart.not_mem {s : List Char} (h : IsPart s) (mark : Char) (hm : isNameChar mark = false) : mark ∉ s := by
  intro hs
  have hname := (isName_iff s).mpr h
  simp only [isName, Bool.and_eq_true, List.all_eq_true] at hname
  rw [hname.2 mark hs] at hm
  cases hm

/-! ## Digits -/

theorem isBlank_of_isDigit {c : Char} (h : Text.isDigit c = true) : Text.isBlank c = false := by
  apply Text.isBlank_of_isIdentifierChar
  have hascii : c.toNat < 0x80 := by
    simp only [Text.isDigit, Bool.and_eq_true, decide_eq_true_eq] at h
    have hle : c.toNat ≤ '9'.toNat := h.2
    exact Nat.lt_of_le_of_lt hle (by decide)
  simp [Text.isIdentifierChar, Text.isIdentifierPart, hascii, h]

theorem ne_of_isDigit {c mark : Char} (h : Text.isDigit c = true) (hm : Text.isDigit mark = false) : c ≠ mark := by
  rintro rfl
  rw [h] at hm
  cases hm

theorem isVersion_iff (s : List Char) : isVersion s = true ↔ ∃ c : Constraint, s = c.version := by
  simp only [isVersion, Bool.and_eq_true, decide_eq_true_eq, List.all_eq_true, Bool.not_eq_true',
    List.isEmpty_eq_false_iff]
  constructor
  · rintro ⟨hlength, hdigits⟩
    exact ⟨⟨none, Text.splitAll '.' s, Text.splitAll_ne_nil '.' s, hlength, hdigits⟩,
      (Text.intercalate_splitAll '.' s).symm⟩
  · rintro ⟨c, rfl⟩
    have hsplit : Text.splitAll '.' c.version = c.groups := by
      apply Text.splitAll_intercalate c.groups_ne_nil
      intro g hg hpoint
      exact ne_of_isDigit ((c.digits g hg).2 '.' hpoint) (by decide) rfl
    rw [hsplit]
    exact ⟨c.length_groups, c.digits⟩

theorem Constraint.version_ends (c : Constraint) :
    c.version ≠ [] ∧ (∀ d ∈ c.version.head?, Text.isDigit d = true) ∧
      ∀ d ∈ c.version.getLast?, Text.isDigit d = true := by
  have hdigits := c.digits
  have hne := c.groups_ne_nil
  unfold Constraint.version
  generalize c.groups = groups at hdigits hne
  induction groups with
  | nil => exact absurd rfl hne
  | cons g groups ih =>
    obtain ⟨hg, hall⟩ := hdigits g List.mem_cons_self
    cases groups with
    | nil =>
      rw [List.intercalate_singleton]
      exact ⟨hg, fun d hd => hall d (List.mem_of_mem_head? hd), fun d hd => hall d (List.mem_of_getLast? hd)⟩
    | cons h groups =>
      obtain ⟨hrest, -, hlast⟩ := ih (fun g hg => hdigits g (List.mem_cons_of_mem _ hg)) (by simp)
      rw [List.intercalate_cons_cons]
      refine ⟨by simp, ?_, ?_⟩
      · obtain ⟨d, g, rfl⟩ := List.exists_cons_of_ne_nil hg
        intro e he
        exact hall e (List.mem_of_mem_head? he)
      · rw [List.getLast?_append_of_ne_nil _ hrest]
        exact hlast

/-! ## Operators -/

theorem exists_eq_afterOperator (s : List Char) :
    ∃ operator : Option Operator, s = operator.elim [] Operator.text ++ afterOperator s := by
  unfold afterOperator
  split
  · exact ⟨some .atLeast, rfl⟩
  · exact ⟨some .atMost, rfl⟩
  · exact ⟨some .unequal, rfl⟩
  · exact ⟨some .compatible, rfl⟩
  · exact ⟨some .above, rfl⟩
  · exact ⟨some .below, rfl⟩
  · exact ⟨some .equal, rfl⟩
  · exact ⟨none, rfl⟩

theorem afterOperator_text (o : Operator) {s : List Char} (h : s.head? ≠ some '=') :
    afterOperator (o.text ++ s) = s := by
  cases o with
  | atLeast | atMost | unequal | compatible | equal => rfl
  | above | below =>
    cases s with
    | nil => rfl
    | cons c s =>
      have hc : c ≠ '=' := by simpa using h
      simp [Operator.text, afterOperator, hc]

theorem afterOperator_of_isDigit {s : List Char} (h : ∀ d ∈ s.head?, Text.isDigit d = true) :
    afterOperator s = s := by
  cases s with
  | nil => rfl
  | cons c s =>
    have hne (mark : Char) (hm : Text.isDigit mark = false) : c ≠ mark := ne_of_isDigit (h c rfl) hm
    simp [afterOperator, hne '>' rfl, hne '<' rfl, hne '!' rfl, hne '~' rfl, hne '=' rfl]

/-! ## One constraint -/

theorem eq_space_of_isBlank {c : Char} (hc : isConstraintChar c = true) (hb : Text.isBlank c = true) : c = ' ' := by
  unfold isConstraintChar at hc
  rw [Bool.or_eq_true, Bool.or_eq_true] at hc
  rcases hc with (hletter | hdigit) | hmark
  · have hascii : c.toNat < 0x80 := by
      simp only [Text.isLetter, Bool.or_eq_true, Bool.and_eq_true, decide_eq_true_eq] at hletter
      rcases hletter with ⟨-, hle⟩ | ⟨-, hle⟩
      · exact Nat.lt_of_le_of_lt (show c.toNat ≤ 'z'.toNat from hle) (by decide)
      · exact Nat.lt_of_le_of_lt (show c.toNat ≤ 'Z'.toNat from hle) (by decide)
    have hnot := Text.isBlank_of_isIdentifierChar c (by
      simp [Text.isIdentifierChar, Text.isIdentifierPart, hascii, hletter])
    rw [hb] at hnot
    cases hnot
  · rw [isBlank_of_isDigit hdigit] at hb
    cases hb
  · have hmarks : ['.', '<', '>', '=', '~', '_', ',', ' ', '-'].filter Text.isBlank = [' '] := by decide
    have hmem := List.mem_filter.mpr ⟨List.contains_iff_mem.mp hmark, hb⟩
    rw [hmarks] at hmem
    exact List.mem_singleton.mp hmem

theorem isBlank_of_isGap {s : List Char} (h : IsGap s) : ∀ c ∈ s, Text.isBlank c = true := by
  intro c hc
  rw [h c hc]
  decide

theorem exists_writes {s : List Char} (hs : ∀ x ∈ s, isConstraintChar x = true) (h : isConstraint s = true) :
    ∃ c : Constraint, c.Writes s ∧ c.operator ≠ some .unequal := by
  obtain ⟨before, after, hsplit, hbefore, hafter⟩ := Text.exists_eq_trim s
  obtain ⟨operator, hoperator⟩ := exists_eq_afterOperator (Text.trim s)
  obtain ⟨between, hbehind, hbetween⟩ := Text.exists_eq_trimLeft (afterOperator (Text.trim s))
  obtain ⟨v, hversion⟩ := (isVersion_iff _).mp h
  rw [hversion] at hbehind
  rw [hbehind, ← List.append_assoc] at hoperator
  rw [hoperator] at hsplit
  have hspace (x : Char) (hb : Text.isBlank x = true) (hx : x ∈ s) : x = ' ' := eq_space_of_isBlank (hs x hx) hb
  refine ⟨{ v with operator := operator }, ⟨before, between, after, ?_, ?_, ?_, hsplit⟩, ?_⟩
  · exact fun x hx => hspace x (hbefore x hx) (by rw [hsplit]; simp [hx])
  · exact fun x hx => hspace x (hbetween x hx) (by rw [hsplit]; simp [hx])
  · exact fun x hx => hspace x (hafter x hx) (by rw [hsplit]; simp [hx])
  · rintro rfl
    have hmark : '!' ∈ s := by
      rw [hsplit]
      simp [Operator.text]
    exact absurd (hs '!' hmark) (by decide)

theorem IsGap.append {s t : List Char} (hs : IsGap s) (ht : IsGap t) : IsGap (s ++ t) :=
  fun c hc => (List.mem_append.mp hc).elim (hs c) (ht c)

theorem Constraint.version_closed (c : Constraint) :
    (∀ d ∈ c.version.head?, Text.isBlank d = false) ∧ ∀ d ∈ c.version.getLast?, Text.isBlank d = false := by
  obtain ⟨-, hhead, hlast⟩ := c.version_ends
  exact ⟨fun d hd => isBlank_of_isDigit (hhead d hd), fun d hd => isBlank_of_isDigit (hlast d hd)⟩

theorem isConstraint_version (c : Constraint) {before after : List Char} (hbefore : IsGap before)
    (hafter : IsGap after) : isConstraint (before ++ c.version ++ after) = true := by
  obtain ⟨hne, hhead, -⟩ := c.version_ends
  obtain ⟨hopen, hclosed⟩ := c.version_closed
  have htrim : Text.trim (before ++ c.version ++ after) = c.version :=
    Text.trim_between _ _ _ (isBlank_of_isGap hbefore) (isBlank_of_isGap hafter) hne hopen hclosed
  rw [isConstraint, htrim, afterOperator_of_isDigit hhead, Text.trimLeft_eq_self _ hopen]
  exact (isVersion_iff _).mpr ⟨c, rfl⟩

theorem isConstraint_operator (o : Operator) (c : Constraint) {before between after : List Char}
    (hbefore : IsGap before) (hbetween : IsGap between) (hafter : IsGap after) :
    isConstraint (before ++ (o.text ++ (between ++ c.version)) ++ after) = true := by
  obtain ⟨hne, hhead, -⟩ := c.version_ends
  obtain ⟨hopen, hclosed⟩ := c.version_closed
  have hfirst : ∀ x ∈ (o.text ++ (between ++ c.version)).head?, Text.isBlank x = false := by
    cases o <;> simp [Operator.text] <;> decide
  have hend : ∀ x ∈ (o.text ++ (between ++ c.version)).getLast?, Text.isBlank x = false := by
    rw [← List.append_assoc, List.getLast?_append_of_ne_nil _ hne]
    exact hclosed
  have htrim : Text.trim (before ++ (o.text ++ (between ++ c.version)) ++ after) = o.text ++ (between ++ c.version) :=
    Text.trim_between _ _ _ (isBlank_of_isGap hbefore) (isBlank_of_isGap hafter) (by simp [hne]) hfirst hend
  have hnext : (between ++ c.version).head? ≠ some '=' := by
    cases between with
    | nil => exact fun heq => absurd (hhead '=' heq) (by decide)
    | cons x between =>
      rw [hbetween x List.mem_cons_self]
      exact fun heq => absurd (Option.some.inj heq) (by decide)
  rw [isConstraint, htrim, afterOperator_text o hnext, Text.trimLeft_append _ _ (isBlank_of_isGap hbetween),
    Text.trimLeft_eq_self _ hopen]
  exact (isVersion_iff _).mpr ⟨c, rfl⟩

theorem isConstraint_of_writes {c : Constraint} {s : List Char} (h : c.Writes s) : isConstraint s = true := by
  obtain ⟨before, between, after, hbefore, hbetween, hafter, rfl⟩ := h
  unfold Constraint.comparison
  cases c.operator with
  | none =>
    -- Without an operator the gap in front of the version is one with the blanks around the constraint.
    rw [Option.elim_none, List.nil_append, ← List.append_assoc before]
    exact isConstraint_version c (hbefore.append hbetween) hafter
  | some o =>
    rw [Option.elim_some, List.append_assoc o.text]
    exact isConstraint_operator o c hbefore hbetween hafter

/-! ## Lists of constraints -/

theorem Constraint.mem_version {c : Constraint} {x : Char} (h : x ∈ c.version) : x = '.' ∨ Text.isDigit x = true := by
  rcases Text.mem_intercalate h with h | ⟨g, hg, hx⟩
  · exact Or.inl h
  · exact Or.inr ((c.digits g hg).2 x hx)

theorem Constraint.mem_comparison {c : Constraint} {x : Char} (h : x ∈ c.comparison) :
    ∃ o, c.operator = some o ∧ x ∈ o.text := by
  unfold comparison at h
  cases hoperator : c.operator with
  | none =>
    rw [hoperator] at h
    cases h
  | some o =>
    rw [hoperator] at h
    exact ⟨o, rfl, h⟩

theorem Constraint.Writes.mem {c : Constraint} {s : List Char} (h : c.Writes s) {x : Char} (hx : x ∈ s) :
    x = ' ' ∨ (∃ o, c.operator = some o ∧ x ∈ o.text) ∨ x = '.' ∨ Text.isDigit x = true := by
  obtain ⟨before, between, after, hbefore, hbetween, hafter, rfl⟩ := h
  simp only [List.mem_append] at hx
  rcases hx with (hx | (hx | hx) | hx) | hx
  · exact Or.inl (hbefore x hx)
  · exact Or.inr (Or.inl (mem_comparison hx))
  · exact Or.inl (hbetween x hx)
  · exact Or.inr (Or.inr (mem_version hx))
  · exact Or.inl (hafter x hx)

theorem Constraint.Writes.not_mem_comma {c : Constraint} {s : List Char} (h : c.Writes s) : ',' ∉ s := by
  intro hx
  rcases h.mem hx with hx | ⟨o, -, hx⟩ | hx | hx
  · exact absurd hx (by decide)
  · cases o <;> simp [Operator.text] at hx
  · exact absurd hx (by decide)
  · exact absurd hx (by decide)

theorem Operator.isConstraintChar_text {o : Operator} (h : o ≠ .unequal) :
    ∀ x ∈ o.text, isConstraintChar x = true := by
  cases o with
  | unequal => exact absurd rfl h
  | atLeast | atMost | above | below | compatible | equal => exact List.all_eq_true.mp (by decide)

theorem Constraint.Writes.isConstraintChar {c : Constraint} {s : List Char} (h : c.Writes s)
    (hc : c.operator ≠ some .unequal) : ∀ x ∈ s, isConstraintChar x = true := by
  intro x hx
  rcases h.mem hx with rfl | ⟨o, hoperator, hx⟩ | rfl | hx
  · decide
  · rw [hoperator] at hc
    exact Operator.isConstraintChar_text (fun ho => hc (congrArg some ho)) x hx
  · decide
  · simp [Provider.isConstraintChar, hx]

theorem WritesAll.isConstraintChar {cs : List Constraint} {s : List Char} (h : WritesAll cs s)
    (hc : ∀ c ∈ cs, c.operator ≠ some .unequal) : ∀ x ∈ s, isConstraintChar x = true := by
  induction h with
  | one h => exact h.isConstraintChar (hc _ List.mem_cons_self)
  | more h _ ih =>
    intro x hx
    rcases List.mem_append.mp hx with hx | hx
    · exact h.isConstraintChar (hc _ List.mem_cons_self) x hx
    · rcases List.mem_cons.mp hx with rfl | hx
      · decide
      · exact ih (fun c hcs => hc c (List.mem_cons_of_mem _ hcs)) x hx

theorem WritesAll.isConstraintList {cs : List Constraint} {s : List Char} (h : WritesAll cs s) :
    isConstraintList s = true := by
  unfold Provider.isConstraintList
  induction h with
  | one h =>
    rw [Text.splitAll_of_not_mem ',' _ h.not_mem_comma]
    simpa using isConstraint_of_writes h
  | more h _ ih =>
    rw [Text.splitAll_append ',' _ _ h.not_mem_comma, List.all_cons, ih, Bool.and_true]
    exact isConstraint_of_writes h

theorem WritesAll.ne_nil {cs : List Constraint} {s : List Char} (h : WritesAll cs s) : s ≠ [] := by
  rintro rfl
  exact absurd h.isConstraintList (by decide)

theorem exists_writesAll_intercalate {parts : List (List Char)} (hne : parts ≠ [])
    (h : ∀ part ∈ parts, ∃ c : Constraint, c.Writes part ∧ c.operator ≠ some .unequal) :
    ∃ cs, WritesAll cs (List.intercalate [','] parts) ∧ ∀ c ∈ cs, c.operator ≠ some .unequal := by
  induction parts with
  | nil => exact absurd rfl hne
  | cons part parts ih =>
    obtain ⟨c, hwrites, hc⟩ := h part List.mem_cons_self
    cases parts with
    | nil => exact ⟨[c], .one (by simpa using hwrites), by simpa using hc⟩
    | cons next parts =>
      obtain ⟨cs, hrest, hcs⟩ := ih (by simp) fun p hp => h p (List.mem_cons_of_mem _ hp)
      rw [List.intercalate_cons_cons, List.append_assoc, List.singleton_append]
      exact ⟨c :: cs, .more hwrites hrest, List.forall_mem_cons.mpr ⟨hc, hcs⟩⟩

theorem exists_writesAll {s : List Char} (hs : ∀ x ∈ s, isConstraintChar x = true) (h : isConstraintList s = true) :
    ∃ cs, WritesAll cs s ∧ ∀ c ∈ cs, c.operator ≠ some .unequal := by
  have hparts : ∀ part ∈ Text.splitAll ',' s, ∃ c : Constraint, c.Writes part ∧ c.operator ≠ some .unequal := by
    intro part hpart
    exact exists_writes (fun x hx => hs x (Text.mem_of_mem_splitAll hpart hx)) (List.all_eq_true.mp h part hpart)
  have hall := exists_writesAll_intercalate (Text.splitAll_ne_nil ',' s) hparts
  rwa [Text.intercalate_splitAll] at hall

/-! ## Blanks around constraints -/

theorem ne_comma_of_isBlank {c : Char} (h : Text.isBlank c = true) : c ≠ ',' := by
  rintro rfl
  exact absurd h (by decide)

theorem isConstraintList_append {pad : List Char} (h : ∀ c ∈ pad, Text.isBlank c = true) (s : List Char) :
    isConstraintList (pad ++ s) = isConstraintList s := by
  induction pad with
  | nil => rfl
  | cons c pad ih =>
    obtain ⟨hc, hpad⟩ := List.forall_mem_cons.mp h
    rw [List.cons_append, ← ih hpad, isConstraintList, Text.splitAll, if_neg (ne_comma_of_isBlank hc), isConstraintList]
    cases hsplit : Text.splitAll ',' (pad ++ s) with
    | nil => exact absurd hsplit (Text.splitAll_ne_nil ',' _)
    | cons part parts => simp [isConstraint, Text.trim_cons hc]

theorem isConstraintList_concat (s : List Char) {pad : List Char} (h : ∀ c ∈ pad, Text.isBlank c = true) :
    isConstraintList (s ++ pad) = isConstraintList s := by
  have hmark : ',' ∉ pad := fun hmem => ne_comma_of_isBlank (h ',' hmem) rfl
  obtain ⟨init, last, hs, hpad⟩ := Text.exists_splitAll_append s hmark
  rw [isConstraintList, isConstraintList, hs, hpad]
  simp [isConstraint, Text.trim_append last h]

theorem isConstraintList_trim (s : List Char) : isConstraintList (Text.trim s) = isConstraintList s := by
  obtain ⟨before, after, hs, hbefore, hafter⟩ := Text.exists_eq_trim s
  conv => rhs; rw [hs, isConstraintList_concat _ hafter, isConstraintList_append hbefore]

/-! ## Arguments -/

theorem parseConstraints_some (text : List Char) (version : String) :
    parseConstraints (some text) = .ok version
      ↔ isConstraintList text = true ∧ version = String.ofList (Text.trim text) := by
  simp only [parseConstraints, isConstraintList_trim]
  split
  · next h => simp [h, eq_comm]
  · next h => simp [h]

theorem not_colon_mem {owner name : List Char} (ho : IsPart owner) (hn : IsPart name) : ':' ∉ owner ++ '/' :: name := by
  simp [ho.not_mem ':' (by decide), hn.not_mem ':' (by decide)]

theorem splitArgument_unconstrained {s : List Char} (h : ':' ∉ s) : splitArgument s = (s, none) := by
  rw [splitArgument, Text.splitAt?_eq_none_iff.mpr h]

theorem splitArgument_constrained {s : List Char} (h : ':' ∉ s) (text : List Char) :
    splitArgument (s ++ ':' :: text) = (s, some text) := by
  rw [splitArgument, Text.splitAt?_append ':' s text h]

theorem eq_of_splitArgument {s source : List Char} {constraints : Option (List Char)}
    (h : splitArgument s = (source, constraints)) : s = source ++ constraints.elim [] (':' :: ·) := by
  unfold splitArgument at h
  cases hsplit : Text.splitAt? ':' s with
  | none =>
    rw [hsplit] at h
    cases h
    simp
  | some parts =>
    obtain ⟨left, right⟩ := parts
    rw [hsplit] at h
    cases h
    exact (Text.splitAt?_eq_some hsplit).1

/-- The provider that the parts of an argument name. -/
def ofParts (owner name : List Char) (version : String) : Provider :=
  ⟨Text.lower (String.ofList owner), Text.lower (String.ofList name), version⟩

theorem parse_eq_ok_iff (input : String) (p : Provider) :
    parse input = .ok p ↔ ∃ owner name constraints version, IsPart owner ∧ IsPart name ∧
      splitArgument input.toList = (owner ++ '/' :: name, constraints) ∧ constraintsFit constraints = true ∧
      parseConstraints constraints = .ok version ∧ p = ofParts owner name version := by
  unfold parse
  constructor
  · intro h
    cases hsplit : splitArgument input.toList with
    | mk source constraints =>
      simp only [hsplit] at h
      split at h
      · cases h
      · next owner name hcut =>
        split at h
        · next hfits =>
          simp only [Bool.and_eq_true] at hfits
          split at h
          · next version hversion =>
            cases h
            obtain ⟨hsource, -⟩ := Text.splitAt?_eq_some hcut
            exact ⟨owner, name, constraints, version, (isName_iff owner).mp hfits.1.1, (isName_iff name).mp hfits.1.2,
              by rw [hsource], hfits.2, hversion, rfl⟩
          · cases h
        · cases h
  · rintro ⟨owner, name, constraints, version, ho, hn, hsplit, hfits, hversion, rfl⟩
    have hslash : '/' ∉ owner := ho.not_mem '/' (by decide)
    simp [hsplit, Text.splitAt?_append '/' owner name hslash, (isName_iff owner).mpr ho, (isName_iff name).mpr hn,
      hfits, hversion, ofParts]

theorem parse_eq_ok_iff_names (input : String) (p : Provider) :
    parse input = .ok p ↔ ∃ cs, Names input.toList cs p ∧ ∀ c ∈ cs, c.operator ≠ some .unequal := by
  rw [parse_eq_ok_iff]
  constructor
  · rintro ⟨owner, name, constraints, version, ho, hn, hsplit, hfits, hversion, rfl⟩
    rw [eq_of_splitArgument hsplit]
    cases constraints with
    | none =>
      cases hversion
      rw [Option.elim_none, List.append_nil]
      exact ⟨[], .unconstrained ho hn, by simp⟩
    | some text =>
      obtain ⟨hlist, rfl⟩ := (parseConstraints_some text version).mp hversion
      simp only [constraintsFit, Bool.and_eq_true, List.all_eq_true] at hfits
      obtain ⟨cs, hwrites, hcs⟩ := exists_writesAll hfits.2 hlist
      exact ⟨cs, .constrained ho hn hwrites, hcs⟩
  · rintro ⟨cs, hnames, hcs⟩
    generalize hs : input.toList = s at hnames
    cases hnames with
    | @unconstrained owner name ho hn =>
      have hcolon := not_colon_mem ho hn
      exact ⟨owner, name, none, _, ho, hn, splitArgument_unconstrained hcolon, rfl, rfl, rfl⟩
    | @constrained owner name text cs ho hn hc =>
      have hcolon := not_colon_mem ho hn
      have hfits : constraintsFit (some text) = true := by
        simpa [constraintsFit, hc.ne_nil] using hc.isConstraintChar hcs
      exact ⟨owner, name, some text, _, ho, hn, splitArgument_constrained hcolon text, hfits,
        (parseConstraints_some text _).mpr ⟨hc.isConstraintList, rfl⟩, rfl⟩

theorem WritesAll.mem_unequal {cs : List Constraint} {s : List Char} (h : WritesAll cs s)
    (hc : ∃ c ∈ cs, c.operator = some .unequal) : '!' ∈ s := by
  have hone {c : Constraint} {s : List Char} (h : c.Writes s) (ho : c.operator = some .unequal) : '!' ∈ s := by
    obtain ⟨before, between, after, -, -, -, rfl⟩ := h
    simp [Constraint.comparison, ho, Operator.text]
  induction h with
  | one h =>
    obtain ⟨c, hmem, ho⟩ := hc
    rw [List.mem_singleton.mp hmem] at ho
    exact hone h ho
  | more h _ ih =>
    obtain ⟨c, hmem, ho⟩ := hc
    rcases List.mem_cons.mp hmem with rfl | hmem
    · exact List.mem_append_left _ (hone h ho)
    · exact List.mem_append_right _ (List.mem_cons_of_mem _ (ih ⟨c, hmem, ho⟩))

/-- The exclamation mark is refused before anything is made of the constraints. -/
theorem parse_of_unequal {input : String} {cs : List Constraint} {p : Provider} (h : Names input.toList cs p)
    (hc : ∃ c ∈ cs, c.operator = some .unequal) : parse input = .error .malformed := by
  generalize hs : input.toList = s at h
  cases h with
  | unconstrained => simp at hc
  | @constrained owner name text cs ho hn hwrites =>
    have hcolon := not_colon_mem ho hn
    have hslash : '/' ∉ owner := ho.not_mem '/' (by decide)
    have hfits : constraintsFit (some text) = false := by
      have hall : text.all isConstraintChar = false :=
        List.all_eq_false.mpr ⟨'!', hwrites.mem_unequal hc, by decide⟩
      simp [constraintsFit, hall]
    have hsplit : splitArgument input.toList = (owner ++ '/' :: name, some text) := by
      rw [hs, splitArgument_constrained hcolon]
    simp [parse, hsplit, Text.splitAt?_append '/' owner name hslash, hfits]

theorem providers_singleton (input : String) (f : Fault) :
    Arguments.providers [input] = .error (.invalidProvider input f) ↔ parse input = .error f := by
  unfold Arguments.providers Arguments.providersFrom add
  cases parse input with
  | error g => simp
  | ok p => simp [Table.has, Arguments.providersFrom]

/-- An argument is read as the provider that the grammar names in it, unless it uses the operator for all versions but
one, which makes it malformed. All other arguments are refused as arguments for a provider. -/
theorem parse_reads_grammar (input : String) :
    (∀ p, parse input = .ok p ↔ ∃ cs, Names input.toList cs p ∧ ∀ c ∈ cs, c.operator ≠ some .unequal) ∧
      ((∃ f, Arguments.providers [input] = .error (.invalidProvider input f))
        ↔ ¬ ∃ p cs, Names input.toList cs p ∧ ∀ c ∈ cs, c.operator ≠ some .unequal) ∧
      ((∃ p cs, Names input.toList cs p ∧ ∃ c ∈ cs, c.operator = some .unequal) → parse input = .error .malformed) := by
  refine ⟨parse_eq_ok_iff_names input, ?_, fun ⟨_, _, hnames, hc⟩ => parse_of_unequal hnames hc⟩
  simp only [providers_singleton, ← parse_eq_ok_iff_names]
  cases parse input with
  | error f => simp
  | ok p => simp

/-- An argument of the grammar may be refused. -/
theorem grammar_is_not_read : ¬ ∀ input, (∃ p, parse input = .ok p) ↔ ∃ p cs, Names input.toList cs p := by
  intro h
  have hpart (s : List Char) (hs : isName s = true) : IsPart s := (isName_iff s).mp hs
  have hwrites : WritesAll [⟨some .unequal, [['3'], ['0']], by simp, by simp, by simp [Text.isDigit]⟩] "!= 3.0".toList :=
    .one ⟨[], [' '], [], by simp [IsGap], by simp [IsGap], by simp [IsGap], by decide⟩
  obtain ⟨p, hp⟩ := (h "hashicorp/aws:!= 3.0").mpr
    ⟨_, _, .constrained (hpart "hashicorp".toList (by decide)) (hpart "aws".toList (by decide)) hwrites⟩
  have hrefused : parse "hashicorp/aws:!= 3.0" = .error .malformed := by decide
  rw [hrefused] at hp
  cases hp

end ModuleScaffold.Provider
