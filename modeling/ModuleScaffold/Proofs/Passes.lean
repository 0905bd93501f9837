import ModuleScaffold.Proofs.Configurable
import ModuleScaffold.Proofs.Refusals

/-! # Passes that narrow a schema set

Filters, prunings and removals in any order. Main statement: what they leave of a schema set depends only on which of
them took place, not on their order or number. -/

namespace ModuleScaffold

/-! ## Attributes at every depth -/

mutual

/-- The block with the attributes that are to be kept at each path; `path` leads to the block itself. -/
def Block.filterAt (keep : List String → String × Attribute → Bool) (path : List String) : Block → Block
  | .mk attributes nested description =>
    .mk (attributes.filter (keep path)) (filterNestedAt keep path nested) description

def filterNestedAt (keep : List String → String × Attribute → Bool) (path : List String) :
    List (String × Nesting × Option Block) → List (String × Nesting × Option Block)
  | [] => []
  | (name, nesting, none) :: rest => (name, nesting, none) :: filterNestedAt keep path rest
  | (name, nesting, some b) :: rest =>
    (name, nesting, some (b.filterAt keep (path ++ [name]))) :: filterNestedAt keep path rest

end

/-- An attribute at a path of names of nested blocks. -/
inductive Block.Has : Block → List String → String × Attribute → Prop where
  | here {b : Block} {e : String × Attribute} : e ∈ b.attributes → Has b [] e
  | inside {b inner : Block} {name : String} {nesting : Nesting} {path : List String} {e : String × Attribute} :
      (name, nesting, some inner) ∈ b.nested → Has inner path e → Has b (name :: path) e

section FilterAt

variable {keep other : List String → String × Attribute → Bool}

theorem filterAt_filterAt (path : List String) (b : Block) :
    (b.filterAt other path).filterAt keep path = b.filterAt (fun path e => keep path e && other path e) path := by
  induction path, b using Block.filterAt.induct _ (fun path nested =>
    filterNestedAt keep path (filterNestedAt other path nested)
      = filterNestedAt (fun path e => keep path e && other path e) path nested) with
  | case1 path attributes nested description ih =>
    rw [Block.filterAt, Block.filterAt, Block.filterAt, List.filter_filter, ih]
  | case2 => rfl
  | case3 path name nesting rest ih => rw [filterNestedAt, filterNestedAt, filterNestedAt, ih]
  | case4 path name nesting b rest ihb ih => rw [filterNestedAt, filterNestedAt, filterNestedAt, ihb, ih]

/-- Keeping the attributes of all inner blocks keeps an inner block as it is. -/
theorem filterAt_of_inner (h : ∀ path e, path ≠ [] → keep path e = true) (path : List String) (hpath : path ≠ [])
    (b : Block) : b.filterAt keep path = b := by
  induction path, b using Block.filterAt.induct _ (fun path nested => filterNestedAt keep path nested = nested) with
  | case1 path attributes nested description ih =>
    rw [Block.filterAt, ih, List.filter_eq_self.mpr fun e _ => h path e hpath]
  | case2 => rfl
  | case3 path name nesting rest ih => rw [filterNestedAt, ih]
  | case4 path name nesting b rest ihb ih => rw [filterNestedAt, ihb (by simp), ih]

theorem filterNestedAt_of_inner (h : ∀ path e, path ≠ [] → keep path e = true) (path : List String)
    (nested : List (String × Nesting × Option Block)) : filterNestedAt keep path nested = nested := by
  induction nested with
  | nil => rfl
  | cons entry rest ih =>
    obtain ⟨name, nesting, _ | b⟩ := entry
    · rw [filterNestedAt, ih]
    · rw [filterNestedAt, filterAt_of_inner h _ (by simp), ih]

theorem filterAt_all (path : List String) (b : Block) : b.filterAt (fun _ _ => true) path = b := by
  obtain ⟨attributes, nested, description⟩ := b
  rw [Block.filterAt, filterNestedAt_of_inner (fun _ _ _ => rfl), List.filter_true]

theorem mem_filterNestedAt {path : List String} {nested : List (String × Nesting × Option Block)} {name : String}
    {nesting : Nesting} {inner : Block} :
    (name, nesting, some inner) ∈ filterNestedAt keep path nested ↔
      ∃ b, (name, nesting, some b) ∈ nested ∧ inner = b.filterAt keep (path ++ [name]) := by
  induction nested with
  | nil => simp [filterNestedAt]
  | cons entry rest ih =>
    obtain ⟨n, g, _ | b⟩ := entry
    · simp [filterNestedAt, ih]
    · rw [filterNestedAt, List.mem_cons, ih]
      constructor
      · rintro (h | ⟨c, hc, rfl⟩)
        · cases h
          exact ⟨b, List.mem_cons_self, rfl⟩
        · exact ⟨c, List.mem_cons_of_mem _ hc, rfl⟩
      · rintro ⟨c, hc, rfl⟩
        rcases List.mem_cons.mp hc with h | h
        · cases h
          exact Or.inl rfl
        · exact Or.inr ⟨c, h, rfl⟩

theorem has_filterAt (b : Block) (before path : List String) (e : String × Attribute) :
    (b.filterAt keep before).Has path e ↔ b.Has path e ∧ keep (before ++ path) e = true := by
  induction path generalizing b before with
  | nil =>
    obtain ⟨attributes, nested, description⟩ := b
    rw [Block.filterAt, List.append_nil]
    constructor
    · rintro (h | _)
      obtain ⟨hmem, hkeep⟩ := List.mem_filter.mp h
      exact ⟨.here hmem, hkeep⟩
    · rintro ⟨h | _, hkeep⟩
      exact .here (List.mem_filter.mpr ⟨h, hkeep⟩)
  | cons name path ih =>
    obtain ⟨attributes, nested, description⟩ := b
    have hpath : before ++ [name] ++ path = before ++ name :: path := by simp
    rw [Block.filterAt, ← hpath]
    constructor
    · rintro (_ | ⟨hmem, hhas⟩)
      obtain ⟨c, hc, rfl⟩ := mem_filterNestedAt.mp hmem
      obtain ⟨hhas, hkeep⟩ := (ih c _).mp hhas
      exact ⟨.inside hc hhas, hkeep⟩
    · rintro ⟨_ | ⟨hmem, hhas⟩, hkeep⟩
      exact .inside (mem_filterNestedAt.mpr ⟨_, hmem, rfl⟩) ((ih _ _).mpr ⟨hhas, hkeep⟩)

end FilterAt

theorem prune_eq_filterAt (b : Block) (path : List String) :
    b.prune = b.filterAt (fun _ e => decide e.2.IsConfigurable) path := by
  induction path, b using Block.filterAt.induct _ (fun path nested =>
    pruneNested nested = filterNestedAt (fun _ e => decide e.2.IsConfigurable) path nested) with
  | case1 path attributes nested description ih =>
    rw [Block.prune, Block.filterAt, ih]
    simp only [not_isSetByProvider]
  | case2 => rfl
  | case3 path name nesting rest ih => rw [pruneNested, filterNestedAt, ih]
  | case4 path name nesting b rest ihb ih => rw [pruneNested, filterNestedAt, ihb, ih]

/-! ## Addresses -/

/-- What stands in an address before its first point, or all of it. -/
def typeOf (address : String) : List Char := address.toList.takeWhile (· ≠ '.')

theorem SchemaSet.addresses_iff (address : String) {type : String} (h : '.' ∉ type.toList) :
    addresses address type = true ↔ typeOf address = type.toList := by
  have hall : ∀ c ∈ type.toList, decide (c ≠ '.') = true := by
    intro c hc
    have hne : c ≠ '.' := fun he => h (he ▸ hc)
    simpa using hne
  unfold addresses typeOf
  constructor
  · intro hmatch
    split at hmatch
    · next hafter =>
      rw [Text.after?_eq_some_iff.mp hafter, List.takeWhile_append_of_pos hall]
      simp
    · next c rest hafter =>
      rw [beq_iff_eq] at hmatch
      rw [Text.after?_eq_some_iff.mp hafter, List.takeWhile_append_of_pos hall, hmatch]
      simp
    · cases hmatch
  · intro htype
    have hafter : Text.after? type.toList address.toList = some (address.toList.dropWhile (· ≠ '.')) := by
      rw [Text.after?_eq_some_iff, ← htype, List.takeWhile_append_dropWhile]
    rw [hafter]
    cases hdrop : address.toList.dropWhile (· ≠ '.') with
    | nil => rfl
    | cons c rest =>
      have hfirst := List.head?_dropWhile_not (fun c => decide (c ≠ '.')) address.toList
      rw [hdrop] at hfirst
      simpa using hfirst

/-! ## Passes -/

namespace SchemaSet

/-- A pass that narrows a schema set. -/
inductive Pass where
  /-- Keeps the resources of the requested types. -/
  | filter (requested : List String)
  /-- Takes away the attributes that only the provider sets. -/
  | prune
  /-- Takes away the attributes that were refused. -/
  | remove (refusals : Refusals)
  deriving DecidableEq

namespace Pass

def apply (s : SchemaSet) : Pass → SchemaSet
  | filter requested => s.keepRequested requested
  | prune => s.prune
  | remove refusals => s.dropRefused refusals

def IsFilter : Pass → Prop
  | filter _ => True
  | prune => False
  | remove _ => False

instance : DecidablePred IsFilter
  | filter _ | prune | remove _ => by unfold IsFilter; exact inferInstance

/-- Whether resources of a type outlast a pass. -/
def Admits (type : String) : Pass → Prop
  | filter requested => type ∈ requested
  | prune => True
  | remove _ => True

instance (type : String) : DecidablePred (Admits type)
  | filter _ | prune | remove _ => by unfold Admits; exact inferInstance

/-- Whether an attribute at a path of a resource outlasts a pass, when the resource does. -/
def Spares (type : String) (path : List String) (e : String × Attribute) : Pass → Prop
  | filter _ => True
  | prune => e.2.IsConfigurable
  | remove refusals => path = [] → ∀ refusal ∈ refusals, typeOf refusal.1 = type.toList → e.1 ∉ refusal.2

instance (type : String) (path : List String) (e : String × Attribute) : DecidablePred (Spares type path e)
  | filter _ | prune | remove _ => by unfold Spares; exact inferInstance

end Pass

/-- What some passes leave of the resources of a provider. -/
def resourcesLeft (passes : List Pass) (resources : Table ResourceSchema) : Table ResourceSchema :=
  (resources.filter fun e => ∀ p ∈ passes, p.Admits e.1).map fun (type, r) =>
    (type, { r with block := r.block.filterAt (fun path e => decide (∀ p ∈ passes, p.Spares type path e)) [] })

/-- What some passes leave of a schema set, whatever their order is. -/
def leftBy (passes : List Pass) (s : SchemaSet) : SchemaSet :=
  { s with
    providers := s.providers.filterMap fun (key, resources) =>
      if (∃ p ∈ passes, p.IsFilter) ∧ (resourcesLeft passes resources).isEmpty = true then none
      else some (key, resourcesLeft passes resources) }

/-- The schema set after some passes, one after the other. -/
def after (passes : List Pass) (s : SchemaSet) : SchemaSet := passes.foldl Pass.apply s

/-- No type of a resource has a point in its name. -/
def PointFree (s : SchemaSet) : Prop :=
  ∀ provider ∈ s.providers, ∀ resource ∈ provider.2, '.' ∉ resource.1.toList

instance : DecidablePred PointFree := fun s => by unfold PointFree; exact inferInstance

/-- A resource of a provider of the schema set. -/
def Holds (s : SchemaSet) (key type : String) (r : ResourceSchema) : Prop :=
  ∃ resources, (key, resources) ∈ s.providers ∧ (type, r) ∈ resources

/-! ## Passes in a row -/

variable {ps qs : List Pass}

theorem resourcesLeft_resourcesLeft (resources : Table ResourceSchema) :
    resourcesLeft qs (resourcesLeft ps resources) = resourcesLeft (ps ++ qs) resources := by
  unfold resourcesLeft
  rw [List.filter_map, List.map_map, List.filter_filter]
  have htypes : ∀ e : String × ResourceSchema, (decide (∀ p ∈ qs, p.Admits e.1) && decide (∀ p ∈ ps, p.Admits e.1))
      = decide (∀ p ∈ ps ++ qs, p.Admits e.1) := by
    intro e
    simp only [List.forall_mem_append, Bool.decide_and, Bool.and_comm]
  have hattributes : ∀ type path e, (decide (∀ p ∈ qs, p.Spares type path e) && decide (∀ p ∈ ps, p.Spares type path e))
      = decide (∀ p ∈ ps ++ qs, p.Spares type path e) := by
    intro type path e
    simp only [List.forall_mem_append, Bool.decide_and, Bool.and_comm]
  simp only [Function.comp_def, filterAt_filterAt, htypes, hattributes]

/-- Only a filter takes resources away. -/
theorem isEmpty_resourcesLeft (hq : ¬∃ p ∈ qs, p.IsFilter) (resources : Table ResourceSchema) :
    (resourcesLeft qs resources).isEmpty = resources.isEmpty := by
  have hadmits : ∀ e ∈ resources, decide (∀ p ∈ qs, p.Admits e.1) = true := by
    intro e _
    rw [decide_eq_true_eq]
    intro p hp
    cases p with
    | filter requested => exact absurd ⟨_, hp, trivial⟩ hq
    | prune => trivial
    | remove refusals => trivial
  unfold resourcesLeft
  rw [List.isEmpty_map, List.filter_eq_self.mpr hadmits]

theorem leftBy_leftBy (s : SchemaSet) : (s.leftBy ps).leftBy qs = s.leftBy (ps ++ qs) := by
  have hfilter : (∃ p ∈ ps ++ qs, p.IsFilter) ↔ (∃ p ∈ ps, p.IsFilter) ∨ ∃ p ∈ qs, p.IsFilter := by
    simp only [List.mem_append, or_and_right, exists_or]
  unfold leftBy
  rw [List.filterMap_filterMap]
  congr 1
  apply List.filterMap_congr
  rintro ⟨key, resources⟩ -
  simp only [← resourcesLeft_resourcesLeft, hfilter]
  by_cases hp : ∃ p ∈ ps, p.IsFilter
  · by_cases hnone : (resourcesLeft ps resources).isEmpty = true
    · have hrest : resourcesLeft qs (resourcesLeft ps resources) = [] := by
        rw [List.isEmpty_iff.mp hnone]
        rfl
      simp [hp, hnone, hrest]
    · by_cases hq : ∃ p ∈ qs, p.IsFilter
      · simp [hp, hq, hnone]
      · simp [hp, hq, hnone, isEmpty_resourcesLeft hq]
  · simp [hp]

theorem leftBy_nil (s : SchemaSet) : s.leftBy [] = s := by
  have hresources : ∀ resources : Table ResourceSchema, resourcesLeft [] resources = resources := by
    intro resources
    unfold resourcesLeft
    simp [filterAt_all]
  unfold leftBy
  simp [hresources]

theorem leftBy_congr (h : ∀ p, p ∈ ps ↔ p ∈ qs) (s : SchemaSet) : s.leftBy ps = s.leftBy qs := by
  unfold leftBy resourcesLeft
  simp only [h]

theorem PointFree.leftBy {s : SchemaSet} (hs : s.PointFree) (passes : List Pass) : (s.leftBy passes).PointFree := by
  rintro ⟨key, left⟩ hprovider ⟨type, r⟩ hresource
  obtain ⟨⟨key', resources⟩, hmem, hleft⟩ := List.mem_filterMap.mp hprovider
  simp only at hleft
  split at hleft
  · cases hleft
  · cases hleft
    obtain ⟨⟨type', r'⟩, hkept, heq⟩ := List.mem_map.mp hresource
    cases heq
    exact hs _ hmem (type, r') (List.mem_filter.mp hkept).1

/-! ## One pass -/

theorem resourcesLeft_filter (requested : List String) (resources : Table ResourceSchema) :
    resourcesLeft [.filter requested] resources = resources.filter fun e => decide (e.1 ∈ requested) := by
  unfold resourcesLeft
  simp only [List.forall_mem_singleton, Pass.Admits, Pass.Spares, decide_true, filterAt_all]
  exact List.map_id _

theorem apply_filter (requested : List String) (s : SchemaSet) :
    s.keepRequested requested = s.leftBy [.filter requested] := by
  unfold keepRequested leftBy
  rw [← List.filterMap_eq_filter, List.filterMap_map]
  congr 1
  apply List.filterMap_congr
  rintro ⟨key, resources⟩ -
  simp only [Function.comp, resourcesLeft_filter]
  cases hleft : (resources.filter fun e => decide (e.1 ∈ requested)).isEmpty <;>
    simp [Option.guard, hleft, Pass.IsFilter]

/-- A pass that is no filter changes blocks only. -/
theorem leftBy_of_not_isFilter {p : Pass} (hp : ¬p.IsFilter) (s : SchemaSet) :
    s.leftBy [p] = s.mapBlocks fun type b => b.filterAt (fun path e => decide (p.Spares type path e)) [] := by
  have hfilter : ¬∃ q ∈ [p], q.IsFilter := by simpa using hp
  have hresources : ∀ resources : Table ResourceSchema, resourcesLeft [p] resources
      = resources.map fun (type, r) =>
        (type, { r with block := r.block.filterAt (fun path e => decide (p.Spares type path e)) [] }) := by
    intro resources
    have hadmits : ∀ type, p.Admits type := by
      intro type
      cases p with
      | filter requested => exact absurd trivial hp
      | prune => trivial
      | remove refusals => trivial
    unfold resourcesLeft
    simp [hadmits]
  unfold leftBy mapBlocks
  simp only [hfilter, false_and, if_false, hresources]
  congr 1
  exact congrFun List.filterMap_eq_map _

theorem apply_prune (s : SchemaSet) : s.prune = s.leftBy [.prune] := by
  rw [leftBy_of_not_isFilter (by simp [Pass.IsFilter])]
  unfold prune
  congr 1
  funext type b
  exact prune_eq_filterAt b []

theorem apply_remove (refusals : Refusals) {s : SchemaSet} (hs : s.PointFree) :
    s.dropRefused refusals = s.leftBy [.remove refusals] := by
  rw [leftBy_of_not_isFilter (by simp [Pass.IsFilter])]
  unfold dropRefused
  apply mapBlocks_congr
  rintro key resources hk type ⟨version, attributes, nested, description⟩ hr
  have htype : '.' ∉ type.toList := hs _ hk _ hr
  have hkept : ∀ e : String × Attribute, (!(refusedFor refusals type).contains e.1)
      = decide ((Pass.remove refusals).Spares type [] e) := by
    intro e
    have hrefused : e.1 ∈ refusedFor refusals type ↔
        ∃ refusal ∈ refusals, typeOf refusal.1 = type.toList ∧ e.1 ∈ refusal.2 := by
      rw [mem_refusedFor]
      simp only [addresses_iff _ htype, Refusals.Mentions]
      constructor
      · rintro ⟨address, haddress, names, hmem, hname⟩
        exact ⟨(address, names), hmem, haddress, hname⟩
      · rintro ⟨⟨address, names⟩, hmem, haddress, hname⟩
        exact ⟨address, haddress, names, hmem, hname⟩
    rw [List.contains_eq_mem, ← decide_not, decide_eq_decide, hrefused]
    simp [Pass.Spares]
  have hinner : ∀ path e, path ≠ [] → decide ((Pass.remove refusals).Spares type path e) = true := by
    intro path e hpath
    simp [Pass.Spares, hpath]
  simp only [Block.withAttributes, Block.attributes]
  rw [Block.filterAt, filterNestedAt_of_inner hinner]
  simp only [hkept]

theorem apply_eq_leftBy {s : SchemaSet} (hs : s.PointFree) (p : Pass) : p.apply s = s.leftBy [p] := by
  cases p with
  | filter requested => exact apply_filter requested s
  | prune => exact apply_prune s
  | remove refusals => exact apply_remove refusals hs

/-! ## Any number of passes -/

theorem after_eq_leftBy {s : SchemaSet} (hs : s.PointFree) (passes : List Pass) : s.after passes = s.leftBy passes := by
  induction passes generalizing s with
  | nil => exact (leftBy_nil s).symm
  | cons p rest ih =>
    have hstep := apply_eq_leftBy hs p
    have hfree := hs.leftBy [p]
    rw [after, List.foldl_cons, hstep]
    exact (ih hfree).trans (leftBy_leftBy s)

/-- A provider keeps its entry, if a filter took place, only with a resource that every pass admits. -/
theorem mem_providers_leftBy {passes : List Pass} {s : SchemaSet} {key : String} {left : Table ResourceSchema} :
    (key, left) ∈ (s.leftBy passes).providers ↔ ∃ resources, (key, resources) ∈ s.providers ∧
      left = resourcesLeft passes resources ∧
      ((∃ p ∈ passes, p.IsFilter) → ∃ e ∈ resources, ∀ p ∈ passes, p.Admits e.1) := by
  have hempty : ∀ resources : Table ResourceSchema, (resourcesLeft passes resources).isEmpty = true ↔
      ¬∃ e ∈ resources, ∀ p ∈ passes, p.Admits e.1 := by
    intro resources
    unfold resourcesLeft
    rw [List.isEmpty_map, List.isEmpty_iff, List.filter_eq_nil_iff]
    simp only [decide_eq_true_eq, not_exists, not_and]
  unfold leftBy
  simp only [List.mem_filterMap, Option.ite_none_left_eq_some, hempty, not_and_not_right]
  constructor
  · rintro ⟨⟨key', resources⟩, hmem, hkept, heq⟩
    cases heq
    exact ⟨resources, hmem, rfl, hkept⟩
  · rintro ⟨resources, hmem, rfl, hkept⟩
    exact ⟨(key, resources), hmem, hkept, rfl⟩

theorem holds_leftBy {passes : List Pass} {s : SchemaSet} {key type : String} {left : ResourceSchema} :
    (s.leftBy passes).Holds key type left ↔ ∃ r, s.Holds key type r ∧ (∀ p ∈ passes, p.Admits type) ∧
      left = { r with block := r.block.filterAt (fun path e => decide (∀ p ∈ passes, p.Spares type path e)) [] } := by
  have hresources : ∀ resources : Table ResourceSchema, (type, left) ∈ resourcesLeft passes resources ↔
      ∃ r, (type, r) ∈ resources ∧ (∀ p ∈ passes, p.Admits type) ∧
        left = { r with block := r.block.filterAt (fun path e => decide (∀ p ∈ passes, p.Spares type path e)) [] } := by
    intro resources
    unfold resourcesLeft
    constructor
    · intro hleft
      obtain ⟨⟨type', r⟩, hkept, heq⟩ := List.mem_map.mp hleft
      cases heq
      obtain ⟨hmem, hadmitted⟩ := List.mem_filter.mp hkept
      exact ⟨r, hmem, of_decide_eq_true hadmitted, rfl⟩
    · rintro ⟨r, hmem, hadmitted, rfl⟩
      exact List.mem_map.mpr ⟨(type, r), List.mem_filter.mpr ⟨hmem, decide_eq_true hadmitted⟩, rfl⟩
  unfold Holds
  constructor
  · rintro ⟨left', hprovider, hresource⟩
    obtain ⟨resources, hmem, rfl, -⟩ := mem_providers_leftBy.mp hprovider
    obtain ⟨r, hr, hadmitted, rfl⟩ := (hresources resources).mp hresource
    exact ⟨r, ⟨resources, hmem, hr⟩, hadmitted, rfl⟩
  · rintro ⟨r, ⟨resources, hmem, hr⟩, hadmitted, rfl⟩
    exact ⟨_, mem_providers_leftBy.mpr ⟨resources, hmem, rfl, fun _ => ⟨_, hr, hadmitted⟩⟩,
      (hresources resources).mpr ⟨r, hr, hadmitted, rfl⟩⟩

/-- Passes over a schema set, in any order and as often as one likes, have one meaning. A resource outlasts them when
every filter asks for its type, and it keeps, of its attributes at every depth, those that every pass spares; a
provider goes when a filter took place and none of its resources is left. The rest stays as it is. So the order and
the number of the passes do not matter. -/
theorem passes_have_one_meaning {s : SchemaSet} (hs : s.PointFree) (passes : List Pass) :
    s.after passes = s.leftBy passes ∧
    (∀ key type, (∃ r, (s.after passes).Holds key type r) ↔
      (∃ r, s.Holds key type r) ∧ ∀ p ∈ passes, p.Admits type) ∧
    (∀ key type left, (s.after passes).Holds key type left → ∃ r, s.Holds key type r ∧
      left = { r with block := r.block.filterAt (fun path e => decide (∀ p ∈ passes, p.Spares type path e)) [] } ∧
      ∀ path e, left.block.Has path e ↔ r.block.Has path e ∧ ∀ p ∈ passes, p.Spares type path e) ∧
    (∀ key, key ∈ (s.after passes).providers.map (·.1) ↔ ∃ resources, (key, resources) ∈ s.providers ∧
      ((∃ p ∈ passes, p.IsFilter) → ∃ e ∈ resources, ∀ p ∈ passes, p.Admits e.1)) ∧
    (∀ others, (∀ p, p ∈ others ↔ p ∈ passes) → s.after others = s.after passes) ∧
    (∀ p q : Pass, q.apply (p.apply s) = p.apply (q.apply s)) ∧ ∀ p : Pass, p.apply (p.apply s) = p.apply s := by
  have hsame : ∀ ps qs, (∀ p, p ∈ ps ↔ p ∈ qs) → s.after ps = s.after qs := by
    intro ps qs h
    rw [after_eq_leftBy hs, after_eq_leftBy hs]
    exact leftBy_congr h s
  refine ⟨after_eq_leftBy hs passes, ?resources, ?attributes, ?providers, fun others h => hsame others passes h,
    fun p q => hsame [p, q] [q, p] (by simp [or_comm]), fun p => hsame [p, p] [p] (by simp)⟩
  case resources =>
    intro key type
    simp only [after_eq_leftBy hs, holds_leftBy]
    constructor
    · rintro ⟨_, r, hr, hadmitted, -⟩
      exact ⟨⟨r, hr⟩, hadmitted⟩
    · rintro ⟨⟨r, hr⟩, hadmitted⟩
      exact ⟨_, r, hr, hadmitted, rfl⟩
  case attributes =>
    intro key type left hleft
    rw [after_eq_leftBy hs, holds_leftBy] at hleft
    obtain ⟨r, hr, -, rfl⟩ := hleft
    refine ⟨r, hr, rfl, fun path e => ?_⟩
    rw [has_filterAt, decide_eq_true_eq, List.nil_append]
  case providers =>
    intro key
    rw [after_eq_leftBy hs]
    constructor
    · intro hkey
      obtain ⟨⟨key', left⟩, hmem, rfl⟩ := List.mem_map.mp hkey
      obtain ⟨resources, hresources, -, hkept⟩ := mem_providers_leftBy.mp hmem
      exact ⟨resources, hresources, hkept⟩
    · rintro ⟨resources, hresources, hkept⟩
      exact List.mem_map.mpr ⟨_, mem_providers_leftBy.mpr ⟨resources, hresources, rfl, hkept⟩, rfl⟩

/-- Two providers with one type of resource, the name of which another type begins with. -/
def diskSchemas : SchemaSet :=
  ⟨"1.0", [("host/owner/other", [("vm_disk", ⟨1, Plan.volumes⟩)]),
    ("host/owner/vm", [("vm_disk", ⟨2, Plan.volumes⟩), ("vm_disk_part", ⟨0, Plan.volumes⟩)]),
    ("host/owner/zone", [("vm_zone", ⟨0, Plan.volumes⟩)])]⟩

def diskPasses : List Pass :=
  [.remove [("vm_disk.this", ["size", "path"])], .filter ["vm_disk_part", "vm_disk"], .prune,
    .filter ["vm_disk", "vm_disk_part", "vm_zone"], .prune]

theorem passes_have_one_meaning_disks :
    diskSchemas.PointFree ∧ diskSchemas.after diskPasses = diskSchemas.leftBy diskPasses ∧
      diskSchemas.after diskPasses.reverse = diskSchemas.after diskPasses ∧
      (diskSchemas.after diskPasses).providers.map (fun provider => (provider.1, provider.2.map fun resource =>
          (resource.1, resource.2.block.attributes.map (·.1))))
        = [("host/owner/other", [("vm_disk", [])]),
          ("host/owner/vm", [("vm_disk", []), ("vm_disk_part", ["size"])])] :=
  have hfree : diskSchemas.PointFree := by decide
  have hmeaning := passes_have_one_meaning hfree diskPasses
  ⟨hfree, hmeaning.1, hmeaning.2.2.2.2.1 _ (fun _ => List.mem_reverse), by rw [hmeaning.1]; decide⟩

end SchemaSet

end ModuleScaffold
