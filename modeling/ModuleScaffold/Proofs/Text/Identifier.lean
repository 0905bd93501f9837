import ModuleScaffold.Proofs.Text.Cut
import ModuleScaffold.Text.Character

/-! # Characters of identifiers

No blank and no mark of the configuration language stands in an identifier, so an identifier can be cut out of
the line that holds it. -/

namespace ModuleScaffold.Text

/-- Whether a character may stand anywhere in an identifier. -/
def isIdentifierChar (c : Char) : Bool := isIdentifierStart c || isIdentifierPart c

def blankPoints : List Nat :=
  List.range' 9 5 ++ List.range' 0x2000 11
    ++ [0x20, 0x85, 0xA0, 0x1680, 0x2028, 0x2029, 0x202F, 0x205F, 0x3000]

theorem mem_blankPoints (c : Char) (h : isBlank c = true) : c.toNat ∈ blankPoints := by
  simp only [isBlank, Bool.or_eq_true, Bool.and_eq_true, decide_eq_true_eq, beq_iff_eq] at h
  simp only [blankPoints, List.mem_append, List.mem_range'_1, List.mem_cons, List.not_mem_nil, or_false]
  omega

theorem blankPoints_not_identifier :
    ∀ n ∈ blankPoints, isIdentifierChar (Char.ofNat n) = false := by
  decide +kernel

theorem isBlank_of_isIdentifierChar (c : Char) (h : isIdentifierChar c = true) : isBlank c = false := by
  cases hb : isBlank c with
  | false => rfl
  | true =>
    have hc := blankPoints_not_identifier _ (mem_blankPoints c hb)
    rw [Char.ofNat_toNat, h] at hc
    exact absurd hc (by simp)

/-! ## Names -/

/-- A text that holds only characters of identifiers, and at least one. -/
structure IsName (s : List Char) : Prop where
  ne_nil : s ≠ []
  all : ∀ c ∈ s, isIdentifierChar c = true

theorem IsName.of_isIdentifier {s : List Char} (h : isIdentifier s = true) : IsName s := by
  cases s with
  | nil => simp [isIdentifier] at h
  | cons c rest =>
    simp only [isIdentifier, Bool.and_eq_true, List.all_eq_true] at h
    refine ⟨by simp, ?_⟩
    intro x hx
    unfold isIdentifierChar
    rcases List.mem_cons.mp hx with rfl | hx
    · simp [h.1]
    · simp [h.2 x hx]

theorem IsName.not_mem {s : List Char} (h : IsName s) (mark : Char) (hm : isIdentifierChar mark = false) :
    mark ∉ s := by
  intro hs
  rw [h.all mark hs] at hm
  exact absurd hm (by simp)

theorem IsName.not_blank {s : List Char} (h : IsName s) : ∀ c ∈ s, isBlank c = false :=
  fun c hc => isBlank_of_isIdentifierChar c (h.all c hc)

end ModuleScaffold.Text
