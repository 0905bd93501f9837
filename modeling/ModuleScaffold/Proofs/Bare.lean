import ModuleScaffold.Proofs.Configurable

/-! # Schemas without descriptions

What is written for a schema when none of its descriptions says anything: the same statements and the same fields,
without comments. -/

namespace ModuleScaffold

/-! ## Schemas without descriptions -/

def Attribute.bare (a : Attribute) : Attribute := { a with description := "" }

mutual

/-- The block with the same attributes and nested blocks, none of which is described. -/
def Block.bare : Block → Block
  | .mk attributes nested _ => .mk (attributes.map fun (name, a) => (name, a.bare)) (bareNested nested) ""

def bareNested : List (String × Nesting × Option Block) → List (String × Nesting × Option Block)
  | [] => []
  | (name, nesting, none) :: rest => (name, nesting, none) :: bareNested rest
  | (name, nesting, some b) :: rest => (name, nesting, some b.bare) :: bareNested rest

end

/-- The schema set with all descriptions empty. -/
def SchemaSet.bare (s : SchemaSet) : SchemaSet := s.mapBlocks fun _ b => b.bare

namespace Item

def bares : List Item → List Item
  | [] => []
  | .argument name a :: rest => .argument name a.bare :: bares rest
  | .block name nesting none :: rest => .block name nesting none :: bares rest
  | .block name nesting (some (_, items)) :: rest => .block name nesting (some ("", bares items)) :: bares rest

def bare : Item → Item
  | argument name a => argument name a.bare
  | block name nesting none => block name nesting none
  | block name nesting (some (_, items)) => block name nesting (some ("", bares items))

theorem name_bare (i : Item) : i.bare.name = i.name := by
  match i with
  | argument _ _ => rfl
  | block _ _ none => rfl
  | block _ _ (some (_, _)) => rfl

theorem bares_eq_map (items : List Item) : bares items = items.map bare := by
  induction items with
  | nil => rw [bares]; rfl
  | cons i rest ih =>
    match i with
    | argument _ _ => rw [bares, ih]; rfl
    | block _ _ none => rw [bares, ih]; rfl
    | block _ _ (some (_, _)) => rw [bares, ih]; rfl

theorem bares_sort (items : List Item) : bares (sort items) = sort (bares items) := by
  rw [bares_eq_map, bares_eq_map, map_sort name_bare]

end Item

theorem description_bare (b : Block) : b.bare.description = "" := by
  cases b
  rw [Block.bare, Block.description]

theorem items_bare (b : Block) : b.bare.items = Item.bares b.items := by
  induction b using Block.bare.induct _ (fun nested =>
    nestedItems (bareNested nested) = Item.bares (nestedItems nested)) with
  | case1 attributes nested _ ih =>
    rw [Block.bare, Block.items, Block.items, Item.bares_sort, ih, Item.bares_eq_map, Item.bares_eq_map,
      List.map_append, List.map_map, List.map_map]
    rfl
  | case2 => rw [bareNested, nestedItems, Item.bares]
  | case3 name nesting rest ih => rw [bareNested, nestedItems, nestedItems, Item.bares, ih]
  | case4 name nesting b rest ihb ih =>
    rw [bareNested, nestedItems, nestedItems, Item.bares, ih, ihb, description_bare]

/-! ## What does not depend on descriptions -/

theorem Body.statements_bares (root : Root) (items : List Item) :
    statements root (Item.bares items) = statements root items := by
  induction root, items using statements.induct with
  | case1 root => rw [Item.bares]
  | case2 root name a rest ih => rw [Item.bares, statements, statements, ih]
  | case3 root name nesting rest ih => rw [Item.bares, statements, statements, ih]
  | case4 root name nesting description items rest ihi ih => rw [Item.bares, statements, statements, ihi, ih]

theorem Body.resourceLines_bare (type : String) (block : Block) (mode : Mode) (variableName : String) :
    resourceLines type block.bare mode variableName = resourceLines type block mode variableName := by
  unfold resourceLines
  rw [items_bare, statements_bares]

namespace Inputs

theorem commentFor_empty (wanted : Bool) : commentFor wanted "" = none := by
  simp [commentFor]

theorem commentFor_false (description : String) : commentFor false description = none := rfl

theorem fields_bares (comments : Bool) (items : List Item) :
    fields comments (Item.bares items) = fields false items := by
  induction items using fields.induct with
  | case1 => rw [Item.bares, fields, fields]
  | case2 name a rest ih =>
    rw [Item.bares, fields, fields, ih, commentFor_false, Attribute.bare, commentFor_empty]
  | case3 name nesting rest ih => rw [Item.bares, fields, fields, ih]
  | case4 name nesting description items rest ihi ih =>
    rw [Item.bares, fields, fields, ihi, ih, commentFor_empty, commentFor_false]

/-- The variable without the line of its description. -/
def Variable.undescribed : Variable → Variable
  | value name comment _ type nullable => value name comment none type nullable
  | v => v

theorem variableOf_bare (comments : Bool) (i : Item) :
    variableOf comments i.bare = (variableOf false i).undescribed := by
  match i with
  | .argument name a => simp [Item.bare, variableOf, Attribute.bare, commentFor, Variable.undescribed]
  | .block _ _ none => rfl
  | .block name nesting (some (description, items)) =>
    rw [Item.bare, variableOf, variableOf, fields_bares, commentFor_empty, commentFor_false]
    split <;> rfl

end Inputs

end ModuleScaffold
