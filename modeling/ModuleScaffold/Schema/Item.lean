import ModuleScaffold.Schema.Block

/-! # The items of a block

A block seen as one sequence: its attributes and nested blocks together in the order of their names, the
attribute first where both have one name. Both files of a module are written along this sequence. -/

namespace ModuleScaffold

/-- One entry of a block. -/
inductive Item where
  | argument (name : String) (a : Attribute)
  /-- A nested block; its body is what the provider says about it and its own items. -/
  | block (name : String) (nesting : Nesting) (body : Option (String × List Item))

namespace Item

/-- The name of an item. -/
def name : Item → String
  | argument name _ => name
  | block name _ _ => name

/-- Whether an item may stand before another one. -/
def before (a b : Item) : Bool := a.name ≤ b.name

/-- Items in the order of their names; items of one name keep their order. -/
def sort (items : List Item) : List Item := items.mergeSort before

end Item

mutual

/-- The items of a block. -/
def Block.items : Block → List Item
  | .mk attributes nested _ =>
    Item.sort (attributes.map (fun (name, a) => .argument name a) ++ nestedItems nested)

/-- The items of the blocks nested in a block. -/
def nestedItems : List (String × Nesting × Option Block) → List Item
  | [] => []
  | (name, nesting, none) :: rest => .block name nesting none :: nestedItems rest
  | (name, nesting, some b) :: rest =>
    .block name nesting (some (b.description, b.items)) :: nestedItems rest

end

end ModuleScaffold
