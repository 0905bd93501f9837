import ModuleScaffold.Proofs.Items
import ModuleScaffold.Proofs.Names
import Mathlib.Data.List.Nodup

/-! # Schemas that a module can be written for

A name of an argument must not be a word of the language, and none may stand twice where both would be assigned.
Whether a block has such names does not depend on the order in which its items are walked. -/

namespace ModuleScaffold

/-- The words that the configuration language keeps for itself. -/
def Text.keywords : List String := ["for", "in", "if", "else", "endif", "endfor", "null", "true", "false"]

/-- Whether a name may stand where a value is assigned or referred to. -/
def Text.isFree (name : String) : Bool := isIdentifier name.toList && !keywords.contains name

theorem Text.isIdentifier_of_isFree {name : String} (h : isFree name = true) : isIdentifier name.toList = true := by
  rw [isFree, Bool.and_eq_true] at h
  exact h.1

theorem Text.ne_for_of_isFree {name : String} (h : isFree name = true) : name.toList ≠ ['f', 'o', 'r'] := by
  intro he
  obtain rfl : name = "for" := String.toList_inj.mp he
  exact absurd h (by decide)

theorem Text.nodup_toList {names : List String} (h : names.Nodup) : (names.map String.toList).Nodup :=
  h.map fun _ _ => String.toList_inj.mp

mutual

/-- Whether the fields of a type have free names of their own, at every depth. -/
def AttributeType.isWritable : AttributeType → Bool
  | .string | .number | .bool | .any => true
  | .list element | .set element | .map element => element.isWritable
  | .object fields => decide (fields.map (·.1)).Nodup && fieldsWritable fields

def fieldsWritable : List (String × AttributeType) → Bool
  | [] => true
  | (name, type) :: rest => Text.isFree name && type.isWritable && fieldsWritable rest

end

def Attribute.isWritable (a : Attribute) : Bool := a.type.all AttributeType.isWritable

mutual

/-- Whether the attributes and nested blocks of a block have free names, each its own, at every depth. -/
def Block.isWritable : Block → Bool
  | .mk attributes nested _ =>
    decide (attributes.map (·.1) ++ nested.map (·.1)).Nodup
    && (attributes.all (fun (name, a) => Text.isFree name && a.isWritable) && nestedWritable nested)

def nestedWritable : List (String × Nesting × Option Block) → Bool
  | [] => true
  | (name, _, none) :: rest => Text.isFree name && nestedWritable rest
  | (name, _, some b) :: rest => Text.isFree name && b.isWritable && nestedWritable rest

end

namespace Item

def areWritable : List Item → Bool
  | [] => true
  | .argument name a :: rest => Text.isFree name && a.isWritable && areWritable rest
  | .block name _ none :: rest => Text.isFree name && areWritable rest
  | .block name _ (some (_, items)) :: rest =>
    Text.isFree name && (decide (items.map Item.name).Nodup && areWritable items) && areWritable rest

theorem areWritable_cons (i : Item) (rest : List Item) :
    areWritable (i :: rest) = (areWritable [i] && areWritable rest) := by
  match i with
  | argument _ _ => simp [areWritable]
  | block _ _ none => simp [areWritable]
  | block _ _ (some (_, _)) => simp [areWritable]

theorem areWritable_iff (items : List Item) : areWritable items = true ↔ ∀ i ∈ items, areWritable [i] = true := by
  induction items with
  | nil => simp [areWritable]
  | cons i rest ih => rw [areWritable_cons, Bool.and_eq_true, ih, List.forall_mem_cons]

theorem areWritable_sort (items : List Item) : areWritable (sort items) = areWritable items := by
  rw [Bool.eq_iff_iff, areWritable_iff, areWritable_iff]
  unfold sort
  simp only [List.mem_mergeSort]

/-- The items of a block have the names of its attributes and nested blocks. -/
theorem perm_names_items (b : Block) :
    (b.items.map name).Perm (b.attributes.map (·.1) ++ b.nested.map (·.1)) := by
  have hsort := (List.mergeSort_perm (b.attributes.map (fun e => argument e.1 e.2) ++ b.nested.map ofNested)
    before).map name
  rw [List.map_append, List.map_map, List.map_map] at hsort
  rw [Block.items_eq]
  exact hsort

end Item

theorem areWritable_items (b : Block) :
    b.isWritable = (decide (b.items.map Item.name).Nodup && Item.areWritable b.items) := by
  induction b using Block.items.induct _ (fun nested =>
    Item.areWritable (nestedItems nested) = nestedWritable nested) with
  | case1 attributes nested description ih =>
    have hnames := (Item.perm_names_items (.mk attributes nested description)).nodup_iff
    simp only [hnames]
    rw [Block.isWritable, ← ih, Block.items, Item.areWritable_sort]
    congr 1
    clear hnames
    induction attributes with
    | nil => simp
    | cons e rest ihr =>
      obtain ⟨name, a⟩ := e
      rw [List.map_cons, List.cons_append, Item.areWritable, ← ihr, List.all_cons, Bool.and_assoc]
  | case2 => simp [nestedItems, nestedWritable, Item.areWritable]
  | case3 name nesting rest ih => rw [nestedItems, Item.areWritable, nestedWritable, ih]
  | case4 name nesting b rest ihb ih => rw [nestedItems, Item.areWritable, nestedWritable, ihb, ih]

/-! ## Arguments -/

namespace Item

/-- The names that values are assigned to where these items are written as a body. -/
def assigned : List Item → List (List Char)
  | [] => []
  | .argument name _ :: rest => name.toList :: assigned rest
  | .block _ _ _ :: rest => assigned rest

theorem assigned_sublist (items : List Item) :
    (assigned items).Sublist ((items.map name).map String.toList) := by
  induction items with
  | nil => exact .refl _
  | cons i rest ih =>
    cases i with
    | argument name a => exact ih.cons_cons _
    | block name nesting body => exact ih.cons _

theorem nodup_assigned {items : List Item} (h : (items.map name).Nodup) : (assigned items).Nodup :=
  (Text.nodup_toList h).sublist (assigned_sublist items)

theorem mem_attributes_of_mem_items {b : Block} {name : String} {a : Attribute} (h : argument name a ∈ b.items) :
    (name, a) ∈ b.attributes := by
  rcases Block.mem_items.mp h with ⟨e, he, heq⟩ | ⟨e, -, heq⟩
  · cases heq
    exact he
  · cases heq

theorem mem_assigned {items : List Item} {name : String} (h : name.toList ∈ assigned items) :
    ∃ a, argument name a ∈ items := by
  induction items with
  | nil => cases h
  | cons i rest ih =>
    cases i with
    | argument other a =>
      rcases List.mem_cons.mp h with h | h
      · obtain rfl := String.toList_inj.mp h
        exact ⟨a, List.mem_cons_self⟩
      · obtain ⟨a, ha⟩ := ih h
        exact ⟨a, List.mem_cons_of_mem _ ha⟩
    | block other nesting body =>
      obtain ⟨a, ha⟩ := ih h
      exact ⟨a, List.mem_cons_of_mem _ ha⟩

/-- What no attribute is called is not assigned either. -/
theorem not_mem_assigned {b : Block} {name : String} (h : ∀ a ∈ b.attributes, a.1 ≠ name) :
    name.toList ∉ assigned b.items := by
  intro hm
  obtain ⟨a, ha⟩ := mem_assigned hm
  exact h _ (mem_attributes_of_mem_items ha) rfl

end Item

end ModuleScaffold
