import ModuleScaffold.Schema.Item
import ModuleScaffold.Proofs.Sorting

/-! # The items of a block

Which items a block has, and that sorting them by name goes together with what is done to each of them. -/

namespace ModuleScaffold

namespace Item

/-! ## Sorting items -/

theorem before_trans (a b c : Item) : before a b → before b c → before a c := by
  simpa [before] using String.le_trans

theorem before_total (a b : Item) : before a b || before b a := by
  simpa [before] using String.le_total a.name b.name

theorem sort_eq_insertionSort (items : List Item) :
    sort items = items.insertionSort fun a b => before a b = true :=
  Sorting.mergeSort_eq_insertionSort_stable before before_trans before_total items

theorem sort_eq_self {items : List Item} (h : items.Pairwise fun a b => a.name ≤ b.name) : sort items = items :=
  List.mergeSort_of_pairwise (h.imp fun hle => by simpa [before] using hle)

/-- Sorting and then making something of items is the same as sorting what is made of them, where it keeps their
names. -/
theorem filterMap_sort {β : Type} {f : Item → Option β} {key : β → String}
    (hf : ∀ i o, f i = some o → key o = i.name) (items : List Item) :
    (sort items).filterMap f = (items.filterMap f).insertionSort fun a b => key a ≤ key b := by
  have htrans : IsTrans Item fun a b => before a b = true := ⟨before_trans⟩
  have htotal : Std.Total fun a b => before a b = true := ⟨fun a b => by simpa using before_total a b⟩
  rw [sort_eq_insertionSort]
  apply Sorting.filterMap_insertionSort
  intro a b x y hx hy
  rw [hf a x hx, hf b y hy]
  simp [before]

theorem filter_sort (keep : Item → Bool) (items : List Item) :
    (sort items).filter keep = sort (items.filter keep) := by
  have hguard : ∀ i o : Item, Option.guard keep i = some o → o.name = i.name := by
    intro i o h
    rw [(Option.guard_eq_some_iff.mp h).1]
  rw [sort_eq_insertionSort (items.filter keep), ← List.filterMap_eq_filter, filterMap_sort hguard]
  simp only [before, decide_eq_true_eq]

theorem map_sort {f : Item → Item} (hf : ∀ i, (f i).name = i.name) (items : List Item) :
    (sort items).map f = sort (items.map f) := by
  rw [sort, sort]
  apply List.map_mergeSort
  intro a _ b _
  rw [before, before, hf, hf]

/-! ## Attributes and nested blocks -/

/-- The name of an attribute. -/
def argument? : Item → Option String
  | argument name _ => some name
  | block _ _ _ => none

/-- The item for a nested block. -/
def ofNested (e : String × Nesting × Option Block) : Item :=
  .block e.1 e.2.1 (e.2.2.map fun inner => (inner.description, inner.items))

end Item

theorem nestedItems_eq_map (nested : List (String × Nesting × Option Block)) :
    nestedItems nested = nested.map Item.ofNested := by
  induction nested with
  | nil => rw [nestedItems]; rfl
  | cons e rest ih =>
    obtain ⟨name, nesting, _ | inner⟩ := e
    · rw [nestedItems, ih]; rfl
    · rw [nestedItems, ih]; rfl

namespace Block

theorem items_eq (b : Block) :
    b.items = Item.sort (b.attributes.map (fun e => .argument e.1 e.2) ++ b.nested.map Item.ofNested) := by
  obtain ⟨attributes, nested, description⟩ := b
  rw [items, nestedItems_eq_map]
  rfl

theorem mem_items {b : Block} {i : Item} :
    i ∈ b.items ↔ (∃ e ∈ b.attributes, i = .argument e.1 e.2) ∨ ∃ e ∈ b.nested, i = Item.ofNested e := by
  rw [items_eq, Item.sort, List.mem_mergeSort, List.mem_append, List.mem_map, List.mem_map]
  simp only [eq_comm]

theorem argument_mem_items {b : Block} {name : String} {a : Attribute} (h : (name, a) ∈ b.attributes) :
    Item.argument name a ∈ b.items :=
  mem_items.mpr (Or.inl ⟨(name, a), h, rfl⟩)

theorem block_mem_items {b inner : Block} {name : String} {nesting : Nesting}
    (h : (name, nesting, some inner) ∈ b.nested) :
    Item.block name nesting (some (inner.description, inner.items)) ∈ b.items :=
  mem_items.mpr (Or.inr ⟨(name, nesting, some inner), h, rfl⟩)

/-- Items that are kept for their kind or for the name of an attribute. -/
theorem filter_items (b : Block) (keep : Option String → Bool) :
    (b.items.filter fun i => keep i.argument?)
      = Item.sort ((b.attributes.filter fun e => keep (some e.1)).map (fun e => .argument e.1 e.2)
        ++ if keep none then b.nested.map Item.ofNested else []) := by
  have hnested : (b.nested.map Item.ofNested).filter (fun i => keep i.argument?)
      = if keep none then b.nested.map Item.ofNested else [] := by
    rw [List.filter_map]
    cases hkeep : keep none <;> simp [Function.comp_def, Item.ofNested, Item.argument?, hkeep]
  rw [items_eq, Item.filter_sort, List.filter_append, List.filter_map, hnested]
  rfl

end Block

end ModuleScaffold
