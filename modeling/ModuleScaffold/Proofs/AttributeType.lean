import ModuleScaffold.Proofs.Reading.TypeConstraint
import ModuleScaffold.Proofs.Table

/-! # Attribute types, there and back

The encoding of a type in a schema and its text in a module both keep the whole type. Main statements: a type is what
its encoding is decoded to, and types that are written alike at one depth are the same. -/

namespace ModuleScaffold

namespace AttributeType

/-! ## The encoding -/

mutual

/-- A type as a schema encodes it. -/
def toJson : AttributeType → Json
  | string => .string "string"
  | number => .string "number"
  | bool => .string "bool"
  | any => .string "dynamic"
  | list element => .array [.string "list", element.toJson]
  | set element => .array [.string "set", element.toJson]
  | map element => .array [.string "map", element.toJson]
  | object fields => .array [.string "object", .object (fieldsToJson fields)]

def fieldsToJson : List (String × AttributeType) → List (String × Json)
  | [] => []
  | (name, type) :: rest => (name, type.toJson) :: fieldsToJson rest

end

mutual

/-- The fields of every object in a type are a table. -/
def IsSorted : AttributeType → Prop
  | string | number | bool | any => True
  | list element | set element | map element => element.IsSorted
  | object fields => Table.Sorted fields ∧ AreSorted fields

def AreSorted : List (String × AttributeType) → Prop
  | [] => True
  | (_, type) :: rest => type.IsSorted ∧ AreSorted rest

end

theorem areSorted_iff (fields : List (String × AttributeType)) :
    AreSorted fields ↔ ∀ e ∈ fields, e.2.IsSorted := by
  induction fields with
  | nil => simp [AreSorted]
  | cons e rest ih => rw [AreSorted, ih, List.forall_mem_cons]

theorem ofJson_list (inner : Json) : ofJson (.array [.string "list", inner]) = list (ofJson inner) := rfl

theorem ofJson_set (inner : Json) : ofJson (.array [.string "set", inner]) = set (ofJson inner) := rfl

theorem ofJson_map (inner : Json) : ofJson (.array [.string "map", inner]) = map (ofJson inner) := rfl

theorem ofJson_object (members : List (String × Json)) :
    ofJson (.array [.string "object", .object members]) = object (Table.ofList (fieldsOfJson members)) := rfl

theorem isSorted_ofWord (word : String) : (ofWord word).IsSorted := by
  unfold ofWord
  split
  · trivial
  · split
    · trivial
    · split <;> trivial

/-- What is decoded has its fields in tables, in whatever order the document lists them. -/
theorem isSorted_ofJson (j : Json) : (ofJson j).IsSorted := by
  induction j using ofJson.induct _ (fun members => AreSorted (fieldsOfJson members)) with
  | case1 word =>
    rw [ofJson]
    exact isSorted_ofWord word
  | case2 inner ih =>
    rw [ofJson_list]
    exact ih
  | case3 inner _ ih =>
    rw [ofJson_set]
    exact ih
  | case4 inner _ _ ih =>
    rw [ofJson_map]
    exact ih
  | case5 members _ _ _ ih =>
    rw [ofJson_object]
    rw [areSorted_iff] at ih
    exact ⟨Table.sorted_ofList _, (areSorted_iff _).mpr fun e he => ih e (Table.mem_of_mem_ofList he)⟩
  | case6 inner hinner =>
    cases inner with
    | object members => exact (hinner members rfl).elim
    | _ => trivial
  | case7 kind inner hl hs hm ho =>
    rw [ofJson.eq_def]
    simp only [if_neg hl, if_neg hs, if_neg hm, if_neg ho]
    trivial
  | case8 j hword hkind =>
    rw [ofJson.eq_def]
    split
    · exact (hword _ rfl).elim
    · exact (hkind _ _ rfl).elim
    · trivial
  | case9 => trivial
  | case10 name value rest ihv ih => exact ⟨ihv, ih⟩

/-- A type with its fields in tables is what its encoding is decoded to. -/
theorem ofJson_toJson (type : AttributeType) (h : type.IsSorted) : ofJson type.toJson = type := by
  induction type using toJson.induct _ (fun fields =>
      AreSorted fields → fieldsOfJson (fieldsToJson fields) = fields) with
  | case1 | case2 | case3 | case4 =>
    rw [toJson, ofJson]
    rfl
  | case5 element ih => rw [toJson, ofJson_list, ih h]
  | case6 element ih => rw [toJson, ofJson_set, ih h]
  | case7 element ih => rw [toJson, ofJson_map, ih h]
  | case8 fields ih =>
    obtain ⟨hsorted, hfields⟩ := h
    rw [toJson, ofJson_object, ih hfields, hsorted.ofList_eq_self]
  | case9 => rfl
  | case10 name type rest iht ih =>
    rename_i h
    obtain ⟨htype, hrest⟩ := h
    rw [fieldsToJson, fieldsOfJson, iht htype, ih hrest]

/-- Types with their fields in tables are those that a schema can ask for. -/
theorem isSorted_iff (type : AttributeType) : type.IsSorted ↔ ∃ j, ofJson j = type := by
  constructor
  · exact fun h => ⟨type.toJson, ofJson_toJson type h⟩
  · rintro ⟨j, rfl⟩
    exact isSorted_ofJson j

end AttributeType

/-! ## The text -/

namespace Inputs.TypeConstraint

open Reading (Token Lexes)

theorem IsType.unique {ts : List Token} {a b : TypeConstraint} (ha : IsType ts a) (hb : IsType ts b) : a = b := by
  have hread := (ha ts.length [] le_rfl).symm.trans (hb ts.length [] le_rfl)
  exact (Prod.mk.inj (Option.some.inj hread)).1

theorem Spells.unique {s : List Char} {a b : TypeConstraint} (ha : Spells s a) (hb : Spells s b) : a = b := by
  obtain ⟨ts, hta, hla⟩ := ha
  obtain ⟨us, htb, hlb⟩ := hb
  -- A word only ends where a mark follows it, so the tokens are compared in front of one.
  have htokens := (hla '\n' (by decide)).unique (hlb '\n' (by decide))
  cases List.append_cancel_right htokens
  exact hta.unique htb

theorem ofType_injective {a b : AttributeType} (h : ofType a = ofType b) : a = b := by
  induction a using ofType.induct _ (fun fields => ∀ others, ofMembers fields = ofMembers others → fields = others)
      generalizing b with
  | case1 | case2 | case3 | case4 =>
    cases b <;> simp only [ofType, reduceCtorEq] at h
    rfl
  | case5 element ih =>
    cases b <;> simp only [ofType, reduceCtorEq, list.injEq] at h
    rw [ih h]
  | case6 element ih =>
    cases b <;> simp only [ofType, reduceCtorEq, set.injEq] at h
    rw [ih h]
  | case7 element ih =>
    cases b <;> simp only [ofType, reduceCtorEq, map.injEq] at h
    rw [ih h]
  | case8 fields ih =>
    cases b <;> simp only [ofType, reduceCtorEq, object.injEq] at h
    rw [ih _ h]
  | case9 others h =>
    cases others with
    | nil => rfl
    | cons e others => cases h
  | case10 name type rest iht ih others h =>
    cases others with
    | nil => cases h
    | cons e others =>
      obtain ⟨other, otherType⟩ := e
      simp only [ofMembers, List.cons.injEq, Prod.mk.injEq] at h
      obtain ⟨⟨rfl, htype⟩, hrest⟩ := h
      rw [iht htype, ih others hrest]

end Inputs.TypeConstraint

namespace AttributeType

/-- A type is known by its text. -/
theorem renderAt_injective {a b : AttributeType} (ha : a.isNamed = true) (hb : b.isNamed = true) {depth : Nat}
    (h : a.renderAt depth = b.renderAt depth) : a = b := by
  have hspells := Inputs.TypeConstraint.spells_type depth a ha
  rw [h] at hspells
  exact Inputs.TypeConstraint.ofType_injective (hspells.unique (Inputs.TypeConstraint.spells_type depth b hb))

/-- The encoding of a type in a schema is decoded to the type, and the text of a declaration tells it from the type of
every other attribute; a missing type is declared as the one that admits everything. -/
theorem type_survives_both_translations (type : AttributeType) (hs : type.IsSorted) (hn : type.isNamed = true) :
    ofJson type.toJson = type ∧
    (∀ (other : AttributeType) (depth : Nat), other.isNamed = true →
      other.renderAt depth = type.renderAt depth → other = type) ∧
    (∀ (a : Attribute) (depth : Nat), a.isNamed = true →
      renderOptional depth a.type = type.renderAt depth → a.type.getD any = type) := by
  refine ⟨ofJson_toJson type hs, ?_, ?_⟩
  · intro other depth hother htext
    exact renderAt_injective hother hn htext
  · intro a depth ha htext
    exact renderAt_injective (Inputs.TypeConstraint.isNamed_getD ha) hn htext

theorem type_survives_both_translations_disks :
    let disks := object [("disk", list (object [("id", string), ("size", number)])), ("tags", map any)]
    ofJson disks.toJson = disks ∧
    (object [("disk", list (object [("id", string)])), ("size", number), ("tags", map any)]).renderAt 1 ≠
      disks.renderAt 1 := by
  intro disks
  have hs : disks.IsSorted :=
    ⟨List.pairwise_pair.mpr (by decide +kernel), ⟨List.pairwise_pair.mpr (by decide +kernel), trivial, trivial, trivial⟩,
      trivial, trivial⟩
  have hboth := type_survives_both_translations disks hs (by decide)
  refine ⟨hboth.1, fun htext => ?_⟩
  have heq := hboth.2.1 _ 1 (by decide) htext
  simp [disks] at heq

end AttributeType

end ModuleScaffold
