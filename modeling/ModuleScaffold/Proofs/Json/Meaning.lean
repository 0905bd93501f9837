import ModuleScaffold.Proofs.Json.Tree

/-! # What a tree says

What a tree says at a shape depends on its parts alone. Values are read in the order in which they are written, and members
that a record does not have are passed over. -/

namespace ModuleScaffold.Json

variable {ρ : Type}

/-- The shape of a value that is not `null`. -/
def Shape.plain : Shape ρ → Shape ρ
  | optional inner => inner.plain
  | shape => shape

namespace Tree

/-! ## Nesting -/

def isScalar : Tree → Bool
  | array _ | object _ => false
  | _ => true

/-- A member that is not passed over, with its shape. -/
def known? (fields : List (String × Shape ρ)) : Literal × Tree → Option (Shape ρ × Tree)
  | (l, t) => (l.value?.bind (memberShape? · fields)).map (·, t)

/-- The values that are read in a list or an object of a shape. -/
def parts (v : Vocabulary ρ) (shape : Shape ρ) : Tree → List (Shape ρ × Tree)
  | array es =>
    match shape.plain with
    | .any => es.map (.any, ·)
    | .list element => es.map (element, ·)
    | .record name => (v.members name).zipWith (fun field e => (field.2, e)) es
    | _ => []
  | object ms =>
    match shape.plain with
    | .any => ms.map (.any, ·.2)
    | .table value => ms.map (value, ·.2)
    | .record name => ms.filterMap (known? (v.members name))
    | _ => []
  | _ => []

/-- A tree is nested no deeper than the given number of levels, as far as it is read. -/
inductive Fits (v : Vocabulary ρ) : Shape ρ → Nat → Tree → Prop
  | scalar {shape : Shape ρ} {depth : Nat} {t : Tree} (h : t.isScalar = true) : Fits v shape depth t
  | opened {shape : Shape ρ} {depth : Nat} {t : Tree} (h : ∀ part ∈ t.parts v shape, Fits v part.1 depth part.2) :
    Fits v shape (depth + 1) t

theorem fits_iff {v : Vocabulary ρ} {shape : Shape ρ} {depth : Nat} {t : Tree} : t.Fits v shape depth ↔
    t.isScalar = true ∨ depth ≠ 0 ∧ ∀ part ∈ t.parts v shape, part.2.Fits v part.1 (depth - 1) := by
  constructor
  · intro h
    cases h with
    | scalar h => exact .inl h
    | opened h => exact .inr ⟨by omega, h⟩
  · rintro (h | ⟨hdepth, h⟩)
    · exact .scalar h
    · obtain ⟨depth, rfl⟩ := Nat.exists_eq_succ_of_ne_zero hdepth
      exact .opened h

theorem fits_zero {v : Vocabulary ρ} {shape : Shape ρ} {t : Tree} : t.Fits v shape 0 ↔ t.isScalar = true := by
  rw [fits_iff]
  simp

theorem fits_succ {v : Vocabulary ρ} {shape : Shape ρ} {depth : Nat} {t : Tree} : t.Fits v shape (depth + 1) ↔
    t.isScalar = true ∨ ∀ part ∈ t.parts v shape, part.2.Fits v part.1 depth := by
  rw [fits_iff]
  simp

instance decidableFits (v : Vocabulary ρ) : ∀ (depth : Nat) (shape : Shape ρ) (t : Tree), Decidable (t.Fits v shape depth)
  | 0, _, _ => decidable_of_iff _ fits_zero.symm
  | depth + 1, _, _ =>
    have := decidableFits v depth
    decidable_of_iff _ fits_succ.symm

/-! ## Values -/

/-- A word that is written as an object. -/
def wordOf? : List (Literal × Tree) → Option Json
  | [(l, null)] => l.value?.map .string
  | _ => none

/-- A number that is a count. -/
def countOf? : Number → Option Json
  | .whole n => some (.number (.whole n))
  | _ => none

mutual

/-- What a tree says at a shape, if it fits there. -/
def read? (v : Vocabulary ρ) (shape : Shape ρ) : Tree → Option Json
  | null =>
    match shape with
    | .optional _ | .any => some .null
    | _ => none
  | bool b =>
    match shape.plain with
    | .flag | .any => some (.bool b)
    | _ => none
  | number n =>
    match shape.plain with
    | .count => n.value?.bind countOf?
    | .any => n.value?.map .number
    | _ => none
  | string l =>
    match shape.plain with
    | .text | .word | .any => l.value?.map .string
    | _ => none
  | array es =>
    match shape.plain with
    | .any => (readAll? v .any es).map .array
    | .list element => (readAll? v element es).map .array
    | .record name => (readFields? v (v.members name) es).map .object
    | _ => none
  | object ms =>
    match shape.plain with
    | .word => wordOf? ms
    | .any => (readEach? v .any ms).map .object
    | .table value => (readEach? v value ms).map .object
    | .record name => (readMembers? v (v.members name) ms).map .object
    | _ => none

/-- The elements of a list. -/
def readAll? (v : Vocabulary ρ) (shape : Shape ρ) : List Tree → Option (List Json)
  | [] => some []
  | e :: es => (e.read? v shape).bind fun j => (readAll? v shape es).map (j :: ·)

/-- The members of a table. -/
def readEach? (v : Vocabulary ρ) (shape : Shape ρ) : List (Literal × Tree) → Option (List (String × Json))
  | [] => some []
  | (l, t) :: ms =>
    l.value?.bind fun key => (t.read? v shape).bind fun j => (readEach? v shape ms).map ((key, j) :: ·)

/-- The members of a record, each of which may stand once; others are passed over. -/
def readMembers? (v : Vocabulary ρ) (fields : List (String × Shape ρ)) :
    List (Literal × Tree) → Option (List (String × Json))
  | [] => some []
  | (l, t) :: ms =>
    l.value?.bind fun key =>
      match memberShape? key fields with
      | none => readMembers? v fields ms
      | some shape => (t.read? v shape).bind fun j => (readMembers? v fields ms).bind fun more =>
          if key ∈ more.map (·.1) then none else some ((key, j) :: more)

/-- The members of a record that is written as a list. -/
def readFields? (v : Vocabulary ρ) (fields : List (String × Shape ρ)) : List Tree → Option (List (String × Json))
  | [] => some []
  | e :: es =>
    match fields with
    | [] => none
    | (name, shape) :: others => (e.read? v shape).bind fun j => (readFields? v others es).map ((name, j) :: ·)

end

section Members

variable {v : Vocabulary ρ} {fields : List (String × Shape ρ)} {shape : Shape ρ} {l : Literal} {key : String} {t : Tree}
  {ms : List (Literal × Tree)}

theorem readMembers?_unknown (hl : l.value? = some key) (hk : memberShape? key fields = none) :
    readMembers? v fields ((l, t) :: ms) = readMembers? v fields ms := by
  rw [readMembers?, hl, Option.bind_some, hk]

theorem readMembers?_known (hl : l.value? = some key) (hk : memberShape? key fields = some shape) :
    readMembers? v fields ((l, t) :: ms) = (t.read? v shape).bind fun j => (readMembers? v fields ms).bind fun more =>
      if key ∈ more.map (·.1) then none else some ((key, j) :: more) := by
  rw [readMembers?, hl, Option.bind_some, hk]

end Members

end Tree

end ModuleScaffold.Json
