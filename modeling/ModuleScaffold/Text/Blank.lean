/-! # Blank characters

The characters that separate words, and a text without those at its two ends. -/

namespace ModuleScaffold.Text

/-- Whether a character has the Unicode property `White_Space`. -/
def isBlank (c : Char) : Bool :=
  let n := c.toNat
  (9 ≤ n && n ≤ 13) || n == 0x20 || n == 0x85 || n == 0xA0 || n == 0x1680
    || (0x2000 ≤ n && n ≤ 0x200A) || n == 0x2028 || n == 0x2029 || n == 0x202F
    || n == 0x205F || n == 0x3000

/-- The text without the blanks before its first other character. -/
def trimLeft (s : List Char) : List Char := s.dropWhile isBlank

/-- The text without the blanks after its last other character. -/
def trimRight : List Char → List Char
  | [] => []
  | c :: rest =>
    match trimRight rest with
    | [] => if isBlank c then [] else [c]
    | kept => c :: kept

/-- The text without the blanks at its two ends. -/
def trim (s : List Char) : List Char := trimRight (trimLeft s)

/-- A string without the blanks at its two ends. -/
def trimmed (s : String) : String := String.ofList (trim s.toList)

/-- Whether a text holds nothing but blanks. -/
def allBlank (s : List Char) : Bool := s.all isBlank

/-! ## Laws -/

theorem trimRight_eq_nil_iff (s : List Char) : trimRight s = [] ↔ ∀ c ∈ s, isBlank c = true := by
  induction s with
  | nil => simp [trimRight]
  | cons c rest ih =>
    rw [trimRight]
    split
    · next h =>
      have hrest := ih.1 h
      by_cases hc : isBlank c = true
      · simpa [hc] using hrest
      · simp [hc]
    · next h =>
      have hne : trimRight rest ≠ [] := h
      have := mt ih.2 hne
      simp only [List.mem_cons, forall_eq_or_imp, reduceCtorEq, false_iff]
      exact fun hall => this hall.2

end ModuleScaffold.Text
