import ModuleScaffold.Proofs.Items

/-! # Outlines

The names that a module has to write for a block: its arguments and the nested blocks that can be written, in
the order of names, and the same again inside every nested block. Main statement: walking the items of a block
gives its outline. -/

namespace ModuleScaffold

/-- A name that is written for a block, with the names that are written inside it. -/
inductive Outline where
  | argument (name : String)
  | block (name : String) (inner : List Outline)

namespace Outline

def name : Outline → String
  | argument name => name
  | block name _ => name

def IsArgument : Outline → Prop
  | argument _ => True
  | block _ _ => False

instance : DecidablePred IsArgument
  | argument _ => isTrue trivial
  | block _ _ => isFalse id

/-- The order of entries: that of their names, and of one name the argument first. -/
def Precedes (a b : Outline) : Prop := a.name < b.name ∨ (a.name = b.name ∧ (b.IsArgument → a.IsArgument))

instance : DecidableRel Precedes := fun a b => by unfold Precedes; exact inferInstance

end Outline

def NestingMode.written : List NestingMode := [.single, .list, .set]

mutual

/-- The outline of a block: its arguments, and its nested blocks that have a body and a mode that can be
written. -/
def Block.outline : Block → List Outline
  | .mk attributes nested _ =>
    (attributes.map (fun e => Outline.argument e.1) ++ nestedOutline nested).insertionSort Outline.Precedes

def nestedOutline : List (String × Nesting × Option Block) → List Outline
  | [] => []
  | (_, _, none) :: rest => nestedOutline rest
  | (name, nesting, some b) :: rest =>
    if nesting.mode ∈ NestingMode.written then .block name b.outline :: nestedOutline rest
    else nestedOutline rest

end

/-! ## Walking the items -/

/-- The entries of a walk along items: an argument or a block is an entry unless it cannot be written. -/
def Item.outlines : List Item → List Outline
  | [] => []
  | .argument name _ :: rest => .argument name :: outlines rest
  | .block _ _ none :: rest => outlines rest
  | .block name nesting (some (_, items)) :: rest =>
    (if nesting.mode.isSupported then [.block name (outlines items)] else []) ++ outlines rest

namespace Item

theorem outlines_block (name : String) (nesting : Nesting) (description : String) (items rest : List Item) :
    outlines (.block name nesting (some (description, items)) :: rest)
      = if nesting.mode.isSupported then .block name (outlines items) :: outlines rest else outlines rest := by
  rw [outlines]
  split <;> rfl

def outline? : Item → Option Outline
  | argument name _ => some (.argument name)
  | block _ _ none => none
  | block name nesting (some (_, items)) =>
    if nesting.mode.isSupported then some (.block name (outlines items)) else none

theorem outlines_eq_filterMap (items : List Item) : outlines items = items.filterMap outline? := by
  induction items with
  | nil => simp [outlines]
  | cons i rest ih =>
    match i with
    | argument _ _ => rw [outlines, ih, List.filterMap_cons, outline?]
    | block _ _ none => rw [outlines, ih, List.filterMap_cons, outline?]
    | block _ nesting (some (_, items)) =>
      rw [outlines_block, ih, List.filterMap_cons, outline?]
      cases nesting.mode.isSupported <;> rfl

theorem name_outline? (i : Item) (o : Outline) (h : i.outline? = some o) : o.name = i.name := by
  match i with
  | argument _ _ => cases h; rfl
  | block _ _ none => cases h
  | block _ nesting (some (_, items)) =>
    rw [outline?] at h
    split at h
    · cases h; rfl
    · cases h

theorem outlines_sort (items : List Item) :
    outlines (sort items) = (outlines items).insertionSort fun a b => a.name ≤ b.name := by
  rw [outlines_eq_filterMap, outlines_eq_filterMap]
  exact filterMap_sort name_outline? items

theorem outlines_append (items others : List Item) :
    outlines (items ++ others) = outlines items ++ outlines others := by
  simp [outlines_eq_filterMap]

theorem outlines_arguments (attributes : List (String × Attribute)) :
    outlines (attributes.map fun (name, a) => argument name a)
      = attributes.map fun e => Outline.argument e.1 := by
  induction attributes with
  | nil => simp [outlines]
  | cons e rest ih => rw [List.map_cons, outlines, ih]; rfl

end Item

/-! ## Arguments before blocks -/

theorem isArgument_of_mem_arguments (attributes : List (String × Attribute)) (o : Outline)
    (h : o ∈ attributes.map fun e => Outline.argument e.1) : o.IsArgument := by
  obtain ⟨e, -, rfl⟩ := List.mem_map.mp h
  trivial

theorem not_isArgument_of_mem_nestedOutline (nested : List (String × Nesting × Option Block)) (o : Outline)
    (h : o ∈ nestedOutline nested) : ¬ o.IsArgument := by
  induction nested with
  | nil => simp [nestedOutline] at h
  | cons e rest ih =>
    match e with
    | (_, _, none) =>
      rw [nestedOutline] at h
      exact ih h
    | (name, nesting, some b) =>
      rw [nestedOutline] at h
      split at h
      · rcases List.mem_cons.mp h with rfl | h
        · exact id
        · exact ih h
      · exact ih h

theorem precedes_iff_le (a b : Outline) (h : b.IsArgument → a.IsArgument) :
    a.Precedes b ↔ a.name ≤ b.name := by
  unfold Outline.Precedes
  constructor
  · rintro (hlt | ⟨heq, -⟩)
    · exact String.not_lt.mp fun hgt => String.lt_irrefl _ (String.lt_trans hlt hgt)
    · calc a.name = b.name := heq
        _ ≤ b.name := String.le_refl _
  · intro hle
    by_cases heq : a.name = b.name
    · exact Or.inr ⟨heq, h⟩
    · exact Or.inl (String.not_le.mp fun hge => heq (String.le_antisymm hle hge))

/-- Where all arguments stand before all blocks, sorting by names alone keeps an argument before the block of
its name. -/
theorem insertionSort_by_name (arguments blocks : List Outline) (ha : ∀ o ∈ arguments, o.IsArgument)
    (hb : ∀ o ∈ blocks, ¬ o.IsArgument) :
    (arguments ++ blocks).insertionSort (fun a b => a.name ≤ b.name)
      = (arguments ++ blocks).insertionSort Outline.Precedes := by
  have hblocks : ∀ bs : List Outline, (∀ o ∈ bs, ¬ o.IsArgument) →
      bs.insertionSort (fun a b => a.name ≤ b.name) = bs.insertionSort Outline.Precedes := by
    intro bs hbs
    induction bs with
    | nil => rfl
    | cons b bs ih =>
      rw [List.insertionSort_cons, List.insertionSort_cons, ih fun o ho => hbs o (List.mem_cons_of_mem _ ho)]
      apply Sorting.orderedInsert_congr
      intro c hc
      rw [precedes_iff_le]
      exact fun hcarg => absurd hcarg (hbs c (List.mem_cons_of_mem _ ((List.mem_insertionSort _).mp hc)))
  induction arguments with
  | nil => exact hblocks blocks hb
  | cons a rest ih =>
    rw [List.cons_append, List.insertionSort_cons, List.insertionSort_cons,
      ih fun o ho => ha o (List.mem_cons_of_mem _ ho)]
    apply Sorting.orderedInsert_congr
    intro c _
    rw [precedes_iff_le]
    exact fun _ => ha a List.mem_cons_self

/-! ## The outline of a block -/

theorem isSupported_iff_written (mode : NestingMode) :
    mode.isSupported = true ↔ mode ∈ NestingMode.written := by
  cases mode <;> simp [NestingMode.isSupported, NestingMode.written]

theorem outlines_items (b : Block) : Item.outlines b.items = b.outline := by
  induction b using Block.items.induct _ (fun nested =>
    Item.outlines (nestedItems nested) = nestedOutline nested) with
  | case1 attributes nested _ ih =>
    rw [Block.items, Block.outline, Item.outlines_sort, Item.outlines_append, Item.outlines_arguments, ih]
    exact insertionSort_by_name _ _ (isArgument_of_mem_arguments attributes)
      (not_isArgument_of_mem_nestedOutline nested)
  | case2 => rw [nestedItems, Item.outlines, nestedOutline]
  | case3 name nesting rest ih => rw [nestedItems, Item.outlines, nestedOutline, ih]
  | case4 name nesting b rest ihb ih =>
    rw [nestedItems, Item.outlines_block, nestedOutline, ihb, ih]
    simp only [isSupported_iff_written]

theorem block_mem_outline (b : Block) (name : String) (inner : List Outline) :
    .block name inner ∈ b.outline ↔
      ∃ nesting c, (name, nesting, some c) ∈ b.nested ∧ nesting.mode ∈ NestingMode.written ∧ inner = c.outline := by
  rw [← outlines_items, Item.outlines_eq_filterMap, List.mem_filterMap]
  constructor
  · rintro ⟨i, hi, ho⟩
    rcases Block.mem_items.mp hi with ⟨e, -, rfl⟩ | ⟨⟨name', nesting, _ | c⟩, he, rfl⟩
    · cases ho
    · cases ho
    · simp only [Item.ofNested, Option.map_some, Item.outline?, outlines_items] at ho
      split at ho
      · next hmode =>
        cases ho
        exact ⟨nesting, c, he, (isSupported_iff_written _).mp hmode, rfl⟩
      · cases ho
  · rintro ⟨nesting, c, he, hmode, rfl⟩
    refine ⟨_, Block.mem_items.mpr (Or.inr ⟨_, he, rfl⟩), ?_⟩
    simp only [Item.ofNested, Option.map_some, Item.outline?, outlines_items]
    rw [if_pos ((isSupported_iff_written _).mpr hmode)]

end ModuleScaffold
