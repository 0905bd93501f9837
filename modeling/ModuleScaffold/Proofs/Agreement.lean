import ModuleScaffold.Proofs.Reading.Body
import ModuleScaffold.Proofs.Reading.Inputs

/-! # Body and variables agree

The body of a resource assigns to a name for every name that its variables declare, in the same order and with
the same nesting. Both follow the outline of the block. -/

namespace ModuleScaffold

open Inputs (Declaration)

/-- Declared names that follow an outline, entry by entry. What is declared inside an argument belongs to its
type. -/
inductive Mirrors : List Outline → List Declaration → Prop where
  | nil : Mirrors [] []
  | argument {name : String} {inType ds : List Declaration} {os : List Outline} :
      Mirrors os ds → Mirrors (.argument name :: os) (.mk name inType :: ds)
  | block {name : String} {inner os : List Outline} {fields ds : List Declaration} :
      Mirrors inner fields → Mirrors os ds → Mirrors (.block name inner :: os) (.mk name fields :: ds)

namespace Inputs

theorem isSome_ofMode? (mode : NestingMode) : (Holder.ofMode? mode).isSome = mode.isSupported := by
  cases mode <;> rfl

theorem mirrors_fields (comments : Bool) (items : List Item) :
    Mirrors (Item.outlines items) (fieldDeclarations (fields comments items)) := by
  induction items using fields.induct with
  | case1 =>
    rw [Item.outlines, fields, fieldDeclarations]
    exact .nil
  | case2 name a rest ih =>
    rw [Item.outlines, fields, fieldDeclarations]
    exact .argument ih
  | case3 name nesting rest ih =>
    rw [Item.outlines, fields, fieldDeclarations]
    exact ih
  | case4 name nesting description items rest ihi ih =>
    rw [Item.outlines_block, fields, ← isSome_ofMode?]
    cases Holder.ofMode? nesting.mode with
    | none =>
      rw [fieldDeclarations]
      exact ih
    | some holder =>
      rw [fieldDeclarations]
      exact .block ihi ih

theorem mirrors_variables (comments : Bool) (items : List Item) :
    Mirrors (Item.outlines items) ((items.map (variableOf comments)).filterMap Variable.declaration?) := by
  induction items with
  | nil =>
    rw [Item.outlines]
    exact .nil
  | cons i rest ih =>
    rcases i with ⟨name, a⟩ | ⟨name, nesting, _ | ⟨description, items⟩⟩
    · rw [Item.outlines]
      exact .argument ih
    · rw [Item.outlines]
      exact ih
    · rw [Item.outlines_block, List.map_cons, variableOf]
      split
      · exact .block (mirrors_fields comments items) ih
      · exact ih

theorem mirrors_declarations (comments : Bool) (block : Block) (mode : Mode) :
    Mirrors block.outline (declarations comments block mode) := by
  rw [← outlines_items]
  cases mode with
  | single => exact mirrors_variables comments block.items
  | multiple => exact mirrors_fields comments block.items

end Inputs

/-- Both texts of a resource are read back, and both follow the outline of its block: no name is lost, written
twice or moved. -/
theorem texts_follow_outline (comments : Bool) (type : String) (block : Block) (mode : Mode)
    (variableName : String) (ht : Text.isIdentifier type.toList = true) (hb : block.isNamed = true)
    (hn : '\n' ∉ variableName.toList) (hq : '"' ∉ variableName.toList) :
    ∃ entries ds,
      Body.read mode (Text.ofLines (Body.resourceLines type block mode variableName)) = some entries ∧
      Inputs.read mode (Text.ofLines (Inputs.resourceLines comments block mode variableName)) = some ds ∧
      Body.Entry.outlines entries = block.outline ∧ Mirrors block.outline ds := by
  refine ⟨_, _, Body.read_resourceLines type block mode variableName ht hb hn,
    Inputs.read_resourceLines comments block mode variableName hb hn hq, ?_,
    Inputs.mirrors_declarations comments block mode⟩
  rw [Body.Entry.outlines_ofStatements, outlines_items]

/-- A block whose names repeat along a path, with an argument of the same name, a mode that cannot be written
and a body that is missing. -/
def nestedDisks : Block :=
  .mk [("size", ⟨some .number, "", true, false, false⟩), ("disk", ⟨none, "", false, true, false⟩)]
    [("disk", ⟨.list, 0, 0⟩, some (.mk [("path", ⟨some (.object [("dir", .string)]), "", false, true, false⟩)]
        [("disk", ⟨.set, 0, 0⟩, some (.mk [] [] "")), ("var", ⟨.map, 0, 0⟩, some (.mk [] [] ""))] "")),
      ("tag", ⟨.single, 0, 1⟩, none)] ""

theorem nestedDisks_isNamed : nestedDisks.isNamed = true := by decide

example : nestedDisks.outline
    = [.argument "disk", .block "disk" [.block "disk" [], .argument "path"], .argument "size"] := by
  rfl

theorem texts_follow_outline_nestedDisks :
    ∃ entries ds,
      Body.read .multiple (Text.ofLines (Body.resourceLines "vm" nestedDisks .multiple "vms")) = some entries ∧
      Inputs.read .multiple (Text.ofLines (Inputs.resourceLines true nestedDisks .multiple "vms")) = some ds ∧
      Body.Entry.outlines entries = nestedDisks.outline ∧ Mirrors nestedDisks.outline ds :=
  texts_follow_outline true "vm" nestedDisks .multiple "vms" (by decide) nestedDisks_isNamed (by decide) (by decide)

end ModuleScaffold
