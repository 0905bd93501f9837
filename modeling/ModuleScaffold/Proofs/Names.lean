import ModuleScaffold.Proofs.Text.Identifier
import ModuleScaffold.Schema.Item

/-! # Schemas whose names are identifiers

Only such names can be read back from a module. Whether a block has them does not depend on the order in which
its items are walked. -/

namespace ModuleScaffold

mutual

def AttributeType.isNamed : AttributeType → Bool
  | .string | .number | .bool | .any => true
  | .list element | .set element | .map element => element.isNamed
  | .object fields => fieldsNamed fields

def fieldsNamed : List (String × AttributeType) → Bool
  | [] => true
  | (name, type) :: rest => Text.isIdentifier name.toList && type.isNamed && fieldsNamed rest

end

def Attribute.isNamed (a : Attribute) : Bool := a.type.all AttributeType.isNamed

mutual

/-- Whether the attributes and nested blocks of a block have identifiers as names, at every depth. -/
def Block.isNamed : Block → Bool
  | .mk attributes nested _ =>
    attributes.all (fun (name, a) => Text.isIdentifier name.toList && a.isNamed) && nestedNamed nested

def nestedNamed : List (String × Nesting × Option Block) → Bool
  | [] => true
  | (name, _, none) :: rest => Text.isIdentifier name.toList && nestedNamed rest
  | (name, _, some b) :: rest => Text.isIdentifier name.toList && b.isNamed && nestedNamed rest

end

theorem Block.isNamed_attribute {b : Block} {name : String} {a : Attribute} (hb : b.isNamed = true)
    (h : (name, a) ∈ b.attributes) : Text.isIdentifier name.toList = true ∧ a.isNamed = true := by
  obtain ⟨attributes, nested, description⟩ := b
  rw [Block.isNamed, Bool.and_eq_true, List.all_eq_true] at hb
  have hattribute := hb.1 _ h
  rwa [Bool.and_eq_true] at hattribute

namespace Item

def areNamed : List Item → Bool
  | [] => true
  | .argument name a :: rest => Text.isIdentifier name.toList && a.isNamed && areNamed rest
  | .block name _ none :: rest => Text.isIdentifier name.toList && areNamed rest
  | .block name _ (some (_, items)) :: rest =>
    Text.isIdentifier name.toList && areNamed items && areNamed rest

theorem areNamed_cons (i : Item) (rest : List Item) :
    areNamed (i :: rest) = (areNamed [i] && areNamed rest) := by
  match i with
  | argument _ _ => simp [areNamed]
  | block _ _ none => simp [areNamed]
  | block _ _ (some (_, _)) => simp [areNamed]

theorem areNamed_iff (items : List Item) : areNamed items = true ↔ ∀ i ∈ items, areNamed [i] = true := by
  induction items with
  | nil => simp [areNamed]
  | cons i rest ih => rw [areNamed_cons, Bool.and_eq_true, ih, List.forall_mem_cons]

theorem areNamed_sort (items : List Item) : areNamed (sort items) = areNamed items := by
  rw [Bool.eq_iff_iff, areNamed_iff, areNamed_iff]
  unfold sort
  simp only [List.mem_mergeSort]

end Item

theorem areNamed_items (b : Block) : Item.areNamed b.items = b.isNamed := by
  induction b using Block.items.induct _ (fun nested =>
    Item.areNamed (nestedItems nested) = nestedNamed nested) with
  | case1 attributes nested _ ih =>
    rw [Block.items, Block.isNamed, Item.areNamed_sort, ← ih]
    induction attributes with
    | nil => simp
    | cons e rest ihr =>
      obtain ⟨name, a⟩ := e
      rw [List.map_cons, List.cons_append, Item.areNamed, ihr, List.all_cons, Bool.and_assoc, Bool.and_assoc,
        Bool.and_assoc]
  | case2 => simp [nestedItems, nestedNamed, Item.areNamed]
  | case3 name nesting rest ih => rw [nestedItems, Item.areNamed, nestedNamed, ih]
  | case4 name nesting b rest ihb ih => rw [nestedItems, Item.areNamed, nestedNamed, ihb, ih]

namespace SchemaSet

def isNamed (s : SchemaSet) : Bool :=
  s.providers.all fun (_, resources) =>
    resources.all fun (type, r) => Text.isIdentifier type.toList && r.block.isNamed

theorem isNamed_resource {s : SchemaSet} (hs : s.isNamed = true) {key type : String}
    {resources : Table ResourceSchema} {r : ResourceSchema} (hk : (key, resources) ∈ s.providers)
    (hr : (type, r) ∈ resources) : Text.isIdentifier type.toList = true ∧ r.block.isNamed = true := by
  unfold isNamed at hs
  have hresources := List.all_eq_true.mp (List.all_eq_true.mp hs _ hk) _ hr
  rwa [Bool.and_eq_true] at hresources

end SchemaSet

end ModuleScaffold
