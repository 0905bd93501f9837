import ModuleScaffold.Body
import ModuleScaffold.Proofs.Configurable

/-! # Nested blocks that are left out

A nested block without a body, or of a mode that cannot be written, is left out together with everything inside it. Main
statement: a nested block of a schema does not reach the outline exactly when it is one of those that are left out, or
stands inside one. -/

namespace ModuleScaffold

/-! ## What is left out -/

/-- A nested block that is left out, and why. -/
structure Omission where
  /-- The names of the blocks around it, the outermost first. -/
  path : List String
  name : String
  reason : Skip

namespace Omission

/-- The names that lead to the block, its own last. -/
def place (o : Omission) : List String := o.path ++ [o.name]

/-- What is left out in the block `label`, seen from outside of this block. -/
def below (label : String) (o : Omission) : Omission := { o with path := label :: o.path }

theorem place_below (label : String) (o : Omission) : (o.below label).place = label :: o.place := rfl

end Omission

/-- Why a nested block is left out, if it is. A missing body comes before a mode that cannot be written. -/
def Skip.of? (nesting : Nesting) : Option Block → Option Skip
  | none => some .missingBody
  | some _ => if nesting.mode ∈ NestingMode.written then none else some (.unsupported nesting.mode)

/-- What is left out on a walk along items, depth first. Nothing below a block that is left out is walked. -/
def Item.omissions : List Item → List Omission
  | [] => []
  | .argument _ _ :: rest => omissions rest
  | .block name _ none :: rest => ⟨[], name, .missingBody⟩ :: omissions rest
  | .block name nesting (some (_, items)) :: rest =>
    (if nesting.mode ∈ NestingMode.written then (omissions items).map (Omission.below name)
      else [⟨[], name, .unsupported nesting.mode⟩]) ++ omissions rest

namespace Block

/-- What is left out of a block. -/
def omissions (b : Block) : List Omission := Item.omissions b.items

/-- What is left out of a nested block: the whole block, or what is left out of its body. -/
def omissionsAt (name : String) (nesting : Nesting) : Option Block → List Omission
  | none => [⟨[], name, .missingBody⟩]
  | some inner =>
    if nesting.mode ∈ NestingMode.written then inner.omissions.map (Omission.below name)
    else [⟨[], name, .unsupported nesting.mode⟩]

end Block

namespace Item

theorem omissions_eq_flatMap (items : List Item) : omissions items = items.flatMap fun i => omissions [i] := by
  induction items with
  | nil => rw [omissions]; rfl
  | cons i rest ih =>
    rw [List.flatMap_cons, ← ih]
    rcases i with ⟨name, a⟩ | ⟨name, nesting, _ | ⟨description, items⟩⟩
    · simp [omissions]
    · simp [omissions]
    · simp [omissions]

theorem omissions_ofNested (e : String × Nesting × Option Block) :
    omissions [ofNested e] = Block.omissionsAt e.1 e.2.1 e.2.2 := by
  obtain ⟨name, nesting, _ | inner⟩ := e
  · simp [ofNested, omissions, Block.omissionsAt]
  · simp [ofNested, omissions, Block.omissionsAt, Block.omissions]

end Item

namespace Block

theorem mem_omissions {b : Block} {o : Omission} :
    o ∈ b.omissions ↔ ∃ name nesting body, (name, nesting, body) ∈ b.nested ∧ o ∈ omissionsAt name nesting body := by
  rw [omissions, Item.omissions_eq_flatMap, List.mem_flatMap]
  constructor
  · rintro ⟨i, hi, ho⟩
    rcases mem_items.mp hi with ⟨e, -, rfl⟩ | ⟨⟨name, nesting, body⟩, he, rfl⟩
    · simp [Item.omissions] at ho
    · rw [Item.omissions_ofNested] at ho
      exact ⟨name, nesting, body, he, ho⟩
  · rintro ⟨name, nesting, body, he, ho⟩
    refine ⟨_, mem_items.mpr (Or.inr ⟨_, he, rfl⟩), ?_⟩
    rw [Item.omissions_ofNested]
    exact ho

/-- Whether a block leaves out a nested block for this reason: the path leads through blocks that are written, and the
nested block itself cannot be. -/
def Omits (b : Block) (o : Omission) : Prop :=
  ∃ c nesting body, b.Reaches o.path c ∧ (o.name, nesting, body) ∈ c.nested ∧ Skip.of? nesting body = some o.reason

theorem mem_omissionsAt_nil {name label : String} {nesting : Nesting} {body : Option Block} {reason : Skip} :
    ⟨[], name, reason⟩ ∈ omissionsAt label nesting body ↔ name = label ∧ Skip.of? nesting body = some reason := by
  cases body with
  | none => simp [omissionsAt, Skip.of?, eq_comm]
  | some inner =>
    rw [omissionsAt, Skip.of?]
    split
    · simp [Omission.below]
    · simp [eq_comm]

theorem mem_omissionsAt_cons {path : List String} {name first label : String} {nesting : Nesting}
    {body : Option Block} {reason : Skip} :
    ⟨first :: path, name, reason⟩ ∈ omissionsAt label nesting body ↔
      first = label ∧ nesting.mode ∈ NestingMode.written ∧
        ∃ inner, body = some inner ∧ ⟨path, name, reason⟩ ∈ inner.omissions := by
  cases body with
  | none => simp [omissionsAt]
  | some inner =>
    rw [omissionsAt]
    split
    · next hmode =>
      rw [List.mem_map]
      constructor
      · rintro ⟨o, ho, heq⟩
        cases heq
        exact ⟨rfl, hmode, inner, rfl, ho⟩
      · rintro ⟨rfl, -, c, hc, ho⟩
        cases hc
        exact ⟨_, ho, rfl⟩
    · next hmode => simp [hmode]

theorem mem_omissions_iff (b : Block) (o : Omission) : o ∈ b.omissions ↔ b.Omits o := by
  obtain ⟨path, name, reason⟩ := o
  unfold Omits
  induction path generalizing b with
  | nil =>
    simp only [mem_omissions, mem_omissionsAt_nil]
    constructor
    · rintro ⟨label, nesting, body, he, rfl, hreason⟩
      exact ⟨b, nesting, body, .here b, he, hreason⟩
    · rintro ⟨c, nesting, body, hreaches, he, hreason⟩
      cases hreaches
      exact ⟨name, nesting, body, he, rfl, hreason⟩
  | cons first path ih =>
    simp only [mem_omissions (b := b), mem_omissionsAt_cons, ih]
    constructor
    · rintro ⟨label, nesting, body, he, rfl, hmode, inner, rfl, c, nesting', body', hreaches, hmem, hreason⟩
      exact ⟨c, nesting', body', .inside he hmode hreaches, hmem, hreason⟩
    · rintro ⟨c, nesting', body', hreaches, hmem, hreason⟩
      cases hreaches with
      | inside he hmode hreaches =>
        exact ⟨first, _, _, he, rfl, hmode, _, rfl, c, nesting', body', hreaches, hmem, hreason⟩

/-! ## Names that stand once -/

/-- At every depth the nested blocks of a block stand in the order of their names, and every name once. -/
inductive NestsInOrder : Block → Prop where
  | mk {b : Block} (sorted : b.nested.Sorted)
      (inner : ∀ name nesting c, (name, nesting, some c) ∈ b.nested → NestsInOrder c) : NestsInOrder b

/-- The tables of every block that is read are in this order. -/
theorem nestsInOrder_ofJson (j : Json) : (ofJson j).NestsInOrder := by
  have hempty : empty.NestsInOrder := .mk List.Pairwise.nil fun _ _ _ he => by cases he
  induction j using ofJson.induct _
    (fun members => ∀ name nesting c, (name, nesting, some c) ∈ nestedAt members → c.NestsInOrder)
    (fun value => ∀ name nesting c, (name, nesting, some c) ∈ nestedOfJson value → c.NestsInOrder)
    (fun entries => ∀ name nesting c, (name, nesting, some c) ∈ nestedEntries entries → c.NestsInOrder)
    (fun value => ∀ c, bodyOfJson value = some c → c.NestsInOrder)
    (fun members => ∀ c, bodyAt members = some c → c.NestsInOrder) with
  | case1 members ih =>
    rw [ofJson]
    exact .mk (Table.sorted_ofList _) fun name nesting c he => ih name nesting c (Table.mem_of_mem_ofList he)
  | case2 value hvalue =>
    rw [ofJson]
    · exact hempty
    · exact hvalue
  | case3 entries ih =>
    rename_i he
    rw [nestedOfJson] at he
    exact ih _ _ _ he
  | case4 value hvalue =>
    rename_i he
    simp [nestedOfJson] at he
  | case5 members ih =>
    rename_i hbody
    rw [bodyOfJson] at hbody
    exact ih _ hbody
  | case6 value hvalue =>
    rename_i hbody
    simp [bodyOfJson] at hbody
  | case7 =>
    rename_i he
    simp [nestedAt] at he
  | case8 value rest ih =>
    rename_i he
    rw [nestedAt, if_pos rfl] at he
    exact ih _ _ _ he
  | case9 name value rest hname ih =>
    rename_i he
    rw [nestedAt, if_neg hname] at he
    exact ih _ _ _ he
  | case10 =>
    rename_i he
    simp [nestedEntries] at he
  | case11 name value rest ihv ih =>
    rename_i he
    rw [nestedEntries] at he
    rcases List.mem_cons.mp he with heq | he
    · simp only [Prod.mk.injEq] at heq
      exact ihv _ heq.2.2.symm
    · exact ih _ _ _ he
  | case12 =>
    rename_i hbody
    simp [bodyAt] at hbody
  | case13 rest =>
    rename_i hbody
    simp [bodyAt] at hbody
  | case14 rest value hvalue ih =>
    rename_i hbody
    unfold bodyAt at hbody
    rw [if_pos rfl] at hbody
    split at hbody
    · cases hbody
    · cases hbody
      exact ih
  | case15 name value rest hname ih =>
    rename_i hbody
    unfold bodyAt at hbody
    rw [if_neg hname] at hbody
    exact ih _ hbody

/-- They stay in this order when attributes that only the provider sets go. -/
theorem nestsInOrder_prune {b : Block} (h : b.NestsInOrder) : b.prune.NestsInOrder := by
  induction h with
  | @mk b sorted _ ih =>
    have hnested := nested_prune b
    refine .mk ?_ fun name nesting c he => ?_
    · rw [hnested]
      exact List.pairwise_map.mpr sorted
    · rw [hnested] at he
      obtain ⟨⟨label, nested, _ | inner⟩, hmem, heq⟩ := List.mem_map.mp he
      · cases heq
      · cases heq
        exact ih label nested inner hmem

/-- They stay in this order when a resource loses attributes of its own. -/
theorem nestsInOrder_withAttributes {b : Block} (h : b.NestsInOrder) (attributes : Table Attribute) :
    (b.withAttributes attributes).NestsInOrder := by
  obtain ⟨_, nested, description⟩ := b
  obtain ⟨sorted, inner⟩ := h
  exact .mk sorted inner

theorem omissions_filter_items (b : Block) :
    Item.omissions (b.items.filter fun i => i.argument?.isNone) = b.omissions := by
  rw [omissions]
  induction b.items with
  | nil => rfl
  | cons i rest ih =>
    rw [Item.omissions_eq_flatMap (i :: rest), List.flatMap_cons, ← Item.omissions_eq_flatMap, ← ih]
    rcases i with ⟨name, a⟩ | ⟨name, nesting, body⟩
    · simp [Item.argument?, Item.omissions]
    · rw [List.filter_cons_of_pos rfl, Item.omissions_eq_flatMap, List.flatMap_cons, ← Item.omissions_eq_flatMap]

/-- A walk over tables lists what is left out of the first nested block, then of the second one, and so on. -/
theorem omissions_of_sorted {b : Block} (h : b.nested.Sorted) :
    b.omissions = b.nested.flatMap fun e => omissionsAt e.1 e.2.1 e.2.2 := by
  have hsorted : (b.nested.map Item.ofNested).Pairwise fun i k => i.name ≤ k.name :=
    List.pairwise_map.mpr (h.imp fun hlt => String.not_lt.mp (String.lt_asymm hlt))
  have hblocks := b.filter_items Option.isNone
  simp only [Option.isNone_some, List.filter_false, List.map_nil, List.nil_append, Option.isNone_none, if_true,
    Item.sort_eq_self hsorted] at hblocks
  rw [← omissions_filter_items, hblocks, Item.omissions_eq_flatMap, List.flatMap_map]
  simp only [Item.omissions_ofNested]

theorem place_of_mem_omissionsAt {name : String} {nesting : Nesting} {body : Option Block} {o : Omission}
    (h : o ∈ omissionsAt name nesting body) : ∃ rest, o.place = name :: rest := by
  obtain ⟨_ | ⟨first, path⟩, label, reason⟩ := o
  · obtain ⟨rfl, -⟩ := mem_omissionsAt_nil.mp h
    exact ⟨[], rfl⟩
  · obtain ⟨rfl, -⟩ := mem_omissionsAt_cons.mp h
    exact ⟨path ++ [label], rfl⟩

/-- The walk meets what is left out in the order of the places, name by name from the outside. -/
theorem pairwise_place_omissions {b : Block} (h : b.NestsInOrder) :
    b.omissions.Pairwise fun o o' => o.place < o'.place := by
  induction h with
  | @mk b sorted _ ih =>
    rw [omissions_of_sorted sorted, List.pairwise_flatMap]
    constructor
    · rintro ⟨name, nesting, _ | inner⟩ he
      · exact List.pairwise_singleton _ _
      · simp only [omissionsAt]
        split
        · rw [List.pairwise_map]
          exact (ih name nesting inner he).imp fun hlt => List.cons_lt_cons_iff.mpr (Or.inr ⟨rfl, hlt⟩)
        · exact List.pairwise_singleton _ _
    · refine sorted.imp fun {e e'} hlt o ho o' ho' => ?_
      obtain ⟨rest, hplace⟩ := place_of_mem_omissionsAt ho
      obtain ⟨rest', hplace'⟩ := place_of_mem_omissionsAt ho'
      rw [hplace, hplace']
      exact List.cons_lt_cons_iff.mpr (Or.inl hlt)

/-- What stands inside a block that is left out is not left out for itself. -/
theorem eq_of_place_prefix {b : Block} (h : b.NestsInOrder) {o o' : Omission} (ho : o ∈ b.omissions)
    (ho' : o' ∈ b.omissions) (hbegins : o.place <+: o'.place) : o = o' := by
  induction h generalizing o o' with
  | @mk b sorted _ ih =>
    obtain ⟨name, nesting, body, he, ho⟩ := mem_omissions.mp ho
    obtain ⟨name', nesting', body', he', ho'⟩ := mem_omissions.mp ho'
    obtain ⟨rest, hplace⟩ := place_of_mem_omissionsAt ho
    obtain ⟨rest', hplace'⟩ := place_of_mem_omissionsAt ho'
    have hname : name = name' := by
      rw [hplace, hplace', List.cons_prefix_cons] at hbegins
      exact hbegins.1
    subst hname
    cases sorted.eq_of_mem he he'
    cases body with
    | none => rw [List.mem_singleton.mp ho, List.mem_singleton.mp ho']
    | some inner =>
      rw [omissionsAt] at ho ho'
      split at ho
      · next hmode =>
        rw [if_pos hmode] at ho'
        obtain ⟨o, hmem, rfl⟩ := List.mem_map.mp ho
        obtain ⟨o', hmem', rfl⟩ := List.mem_map.mp ho'
        rw [Omission.place_below, Omission.place_below, List.cons_prefix_cons] at hbegins
        rw [ih name nesting inner he hmem hmem' hbegins.2]
      · next hmode =>
        rw [if_neg hmode] at ho'
        rw [List.mem_singleton.mp ho, List.mem_singleton.mp ho']

/-! ## What does not reach the outline -/

/-- A nested block stands at this path of names, whether it and the blocks around it are written or not. -/
inductive Nests : Block → List String → Prop where
  | here {b : Block} {name : String} {nesting : Nesting} {body : Option Block} :
      (name, nesting, body) ∈ b.nested → Nests b [name]
  | inside {b inner : Block} {name : String} {nesting : Nesting} {path : List String} :
      (name, nesting, some inner) ∈ b.nested → Nests inner path → Nests b (name :: path)

variable {b inner : Block} {name : String} {nesting : Nesting} {body : Option Block}

theorem not_reaches_of_skip (h : b.nested.Sorted) (he : (name, nesting, body) ∈ b.nested) {reason : Skip}
    (hskip : Skip.of? nesting body = some reason) (path : List String) : ¬ ∃ c, b.Reaches (name :: path) c := by
  rintro ⟨c, hreaches⟩
  cases hreaches with
  | inside he' hmode _ =>
    cases h.eq_of_mem he he'
    rw [Skip.of?, if_pos hmode] at hskip
    cases hskip

theorem reaches_cons_iff (h : b.nested.Sorted) (he : (name, nesting, some inner) ∈ b.nested)
    (hmode : nesting.mode ∈ NestingMode.written) (path : List String) :
    (∃ c, b.Reaches (name :: path) c) ↔ ∃ c, inner.Reaches path c := by
  constructor
  · rintro ⟨c, hreaches⟩
    cases hreaches with
    | inside he' _ hreaches =>
      cases h.eq_of_mem he he'
      exact ⟨c, hreaches⟩
  · rintro ⟨c, hreaches⟩
    exact ⟨c, .inside he hmode hreaches⟩

theorem omissions_above_cons_iff (h : b.nested.Sorted) (he : (name, nesting, some inner) ∈ b.nested)
    (hmode : nesting.mode ∈ NestingMode.written) (path : List String) :
    (∃ o ∈ b.omissions, o.place <+: name :: path) ↔ ∃ o ∈ inner.omissions, o.place <+: path := by
  constructor
  · rintro ⟨o, ho, hbegins⟩
    obtain ⟨name', nesting', body', he', ho⟩ := mem_omissions.mp ho
    obtain ⟨rest, hplace⟩ := place_of_mem_omissionsAt ho
    rw [hplace, List.cons_prefix_cons] at hbegins
    obtain ⟨rfl, hrest⟩ := hbegins
    cases h.eq_of_mem he he'
    rw [omissionsAt, if_pos hmode] at ho
    obtain ⟨inside, hmem, rfl⟩ := List.mem_map.mp ho
    rw [Omission.place_below, List.cons.injEq] at hplace
    exact ⟨inside, hmem, by rw [hplace.2]; exact hrest⟩
  · rintro ⟨o, ho, hbegins⟩
    refine ⟨o.below name, mem_omissions.mpr ⟨name, nesting, some inner, he, ?_⟩, ?_⟩
    · rw [omissionsAt, if_pos hmode]
      exact List.mem_map_of_mem ho
    · rw [Omission.place_below, List.cons_prefix_cons]
      exact ⟨rfl, hbegins⟩

theorem omitted_of_skip (he : (name, nesting, body) ∈ b.nested) {reason : Skip}
    (hskip : Skip.of? nesting body = some reason) (path : List String) :
    ∃ o ∈ b.omissions, o.place <+: name :: path := by
  refine ⟨⟨[], name, reason⟩, mem_omissions.mpr ⟨name, nesting, body, he, ?_⟩, ?_⟩
  · exact mem_omissionsAt_nil.mpr ⟨rfl, hskip⟩
  · exact List.cons_prefix_cons.mpr ⟨rfl, List.nil_prefix⟩

theorem skip_cases (nesting : Nesting) (body : Option Block) :
    (∃ reason, Skip.of? nesting body = some reason) ∨
      ∃ inner, body = some inner ∧ nesting.mode ∈ NestingMode.written := by
  cases body with
  | none => exact Or.inl ⟨_, rfl⟩
  | some inner =>
    by_cases hmode : nesting.mode ∈ NestingMode.written
    · exact Or.inr ⟨inner, rfl, hmode⟩
    · exact Or.inl ⟨.unsupported nesting.mode, by rw [Skip.of?, if_neg hmode]⟩

/-- A nested block is out of reach exactly when it or a block around it is left out. -/
theorem not_reaches_iff {path : List String} (h : b.NestsInOrder) (hpath : b.Nests path) :
    (¬ ∃ c, b.Reaches path c) ↔ ∃ o ∈ b.omissions, o.place <+: path := by
  induction hpath with
  | @here b name nesting body he =>
    obtain ⟨sorted, -⟩ := h
    rcases skip_cases nesting body with ⟨reason, hskip⟩ | ⟨inner, rfl, hmode⟩
    · exact iff_of_true (not_reaches_of_skip sorted he hskip []) (omitted_of_skip he hskip [])
    · rw [reaches_cons_iff sorted he hmode, omissions_above_cons_iff sorted he hmode]
      refine iff_of_false (not_not.mpr ⟨inner, .here inner⟩) ?_
      rintro ⟨o, -, hbegins⟩
      simp [Omission.place] at hbegins
  | @inside b inner name nesting path he _ ih =>
    obtain ⟨sorted, hinner⟩ := h
    rcases skip_cases nesting (some inner) with ⟨reason, hskip⟩ | ⟨c, hc, hmode⟩
    · exact iff_of_true (not_reaches_of_skip sorted he hskip path) (omitted_of_skip he hskip path)
    · rw [reaches_cons_iff sorted he hmode, omissions_above_cons_iff sorted he hmode]
      exact ih (hinner name nesting inner he)

end Block

/-! ## What is visible of a block -/

mutual

/-- The block with nothing in the nested blocks whose mode cannot be written. -/
def Block.visible : Block → Block
  | .mk attributes nested description => .mk attributes (visibleNested nested) description

def visibleNested : List (String × Nesting × Option Block) → List (String × Nesting × Option Block)
  | [] => []
  | (name, nesting, none) :: rest => (name, nesting, none) :: visibleNested rest
  | (name, nesting, some b) :: rest =>
    (name, nesting, some (if nesting.mode ∈ NestingMode.written then b.visible else .empty)) :: visibleNested rest

end

namespace Item

def visibles : List Item → List Item
  | [] => []
  | .argument name a :: rest => .argument name a :: visibles rest
  | .block name nesting none :: rest => .block name nesting none :: visibles rest
  | .block name nesting (some (description, items)) :: rest =>
    .block name nesting (some (if nesting.mode ∈ NestingMode.written then (description, visibles items) else ("", [])))
      :: visibles rest

def visible : Item → Item
  | argument name a => argument name a
  | block name nesting none => block name nesting none
  | block name nesting (some (description, items)) =>
    block name nesting (some (if nesting.mode ∈ NestingMode.written then (description, visibles items) else ("", [])))

theorem name_visible (i : Item) : i.visible.name = i.name := by
  match i with
  | argument _ _ => rfl
  | block _ _ none => rfl
  | block _ _ (some (_, _)) => rfl

theorem visibles_eq_map (items : List Item) : visibles items = items.map visible := by
  induction items with
  | nil => rw [visibles]; rfl
  | cons i rest ih =>
    match i with
    | argument _ _ => rw [visibles, ih]; rfl
    | block _ _ none => rw [visibles, ih]; rfl
    | block _ _ (some (_, _)) => rw [visibles, ih]; rfl

theorem visibles_sort (items : List Item) : visibles (sort items) = sort (visibles items) := by
  rw [visibles_eq_map, visibles_eq_map, map_sort name_visible]

end Item

theorem description_visible (b : Block) : b.visible.description = b.description := by
  obtain ⟨attributes, nested, description⟩ := b
  rw [Block.visible, Block.description, Block.description]

theorem items_empty : Block.empty.items = [] := by
  rw [Block.items_eq]
  exact List.mergeSort_nil

theorem items_visible (b : Block) : b.visible.items = Item.visibles b.items := by
  induction b using Block.visible.induct _ (fun nested =>
    nestedItems (visibleNested nested) = Item.visibles (nestedItems nested)) with
  | case1 attributes nested _ ih =>
    rw [Block.visible, Block.items, Block.items, Item.visibles_sort, ih, Item.visibles_eq_map, Item.visibles_eq_map,
      List.map_append, List.map_map]
    rfl
  | case2 => rw [visibleNested, nestedItems, Item.visibles]
  | case3 name nesting rest ih => rw [visibleNested, nestedItems, nestedItems, Item.visibles, ih]
  | case4 name nesting b rest ihb ih =>
    rw [visibleNested, nestedItems, nestedItems, Item.visibles, ih]
    split
    · rw [ihb, description_visible]
    · rw [items_empty]
      rfl

end ModuleScaffold
