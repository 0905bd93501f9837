import ModuleScaffold.Proofs.Clashes
import ModuleScaffold.Proofs.Filtering

/-! # The keys of a collection

A resource that stands for a collection takes the key of every element from its field `name`, whatever its block
holds. Main statement: the variable of the collection has this field exactly when the schema offers an entry of this
name that outlasts every pass. -/

namespace ModuleScaffold

/-! ## What passes leave of a requested resource -/

namespace SchemaSet

variable {s : SchemaSet} {type : String}

theorem pointFree_of_isNamed (hs : s.isNamed = true) : s.PointFree := by
  rintro ⟨key, resources⟩ hprovider ⟨type, r⟩ hresource
  exact (Text.IsName.of_isIdentifier (isNamed_resource hs hprovider hresource).1).not_mem '.' (by decide)

/-- What a pass leaves of the block of a resource. -/
def blockLeft (passes : List Pass) (type : String) (b : Block) : Block :=
  b.filterAt (fun path e => decide (∀ q ∈ passes, q.Spares type path e)) []

theorem blockLeft_of_spares {passes : List Pass} (h : ∀ path e, ∀ q ∈ passes, q.Spares type path e)
    (b : Block) : blockLeft passes type b = b := by
  have hall : (fun path e => decide (∀ q ∈ passes, q.Spares type path e)) = fun _ _ => true := by
    funext path e
    exact decide_eq_true (h path e)
  rw [blockLeft, hall, filterAt_all]

theorem blockLeft_cons (q : Pass) (rest : List Pass) (b : Block) :
    blockLeft rest type (blockLeft [q] type b) = blockLeft (q :: rest) type b := by
  unfold blockLeft
  rw [filterAt_filterAt]
  simp only [List.forall_mem_singleton, List.forall_mem_cons, Bool.decide_and, Bool.and_comm]

theorem resource?_apply (hk : s.providers.Sorted) (hs : s.PointFree) {q : Pass} (hq : q.Admits type) (key : String) :
    (q.apply s).resource? key type
      = (s.resource? key type).map fun r => { r with block := blockLeft [q] type r.block } := by
  by_cases hfilter : q.IsFilter
  · cases q with
    | filter requested =>
      have hall : ∀ b : Block, blockLeft [.filter requested] type b = b :=
        blockLeft_of_spares fun _ _ => List.forall_mem_singleton.mpr trivial
      rw [Pass.apply, resource?_keepRequested hk hq]
      simp only [hall]
      exact Option.map_id'.symm
    | prune => cases hfilter
    | remove refusals => cases hfilter
  · have hblock : ∀ b : Block,
        blockLeft [q] type b = b.filterAt (fun path e => decide (q.Spares type path e)) [] := by
      intro b
      unfold blockLeft
      simp only [List.forall_mem_singleton]
    rw [apply_eq_leftBy hs, leftBy_of_not_isFilter hfilter, resource?_mapBlocks]
    simp only [hblock]

/-- A requested resource outlasts passes that admit its type, with the attributes that all of them spare. -/
theorem resource?_after (hk : s.providers.Sorted) (hs : s.PointFree) {passes : List Pass}
    (hq : ∀ q ∈ passes, q.Admits type) (key : String) :
    (s.after passes).resource? key type
      = (s.resource? key type).map fun r => { r with block := blockLeft passes type r.block } := by
  induction passes generalizing s with
  | nil =>
    have hall : ∀ b : Block, blockLeft [] type b = b := blockLeft_of_spares fun _ _ => List.forall_mem_nil _
    simp only [hall]
    exact Option.map_id'.symm
  | cons q rest ih =>
    have hfree : (q.apply s).PointFree := by
      rw [apply_eq_leftBy hs]
      exact hs.leftBy [q]
    calc (s.after (q :: rest)).resource? key type
      _ = ((q.apply s).resource? key type).map fun r => { r with block := blockLeft rest type r.block } :=
          ih (sorted_apply hk q) hfree fun r hr => hq r (List.mem_cons_of_mem _ hr)
      _ = (s.resource? key type).map fun r => { r with block := blockLeft (q :: rest) type r.block } := by
          rw [resource?_apply hk hs (hq q List.mem_cons_self), Option.map_map]
          simp only [Function.comp_def, blockLeft_cons]

end SchemaSet

theorem isNamed_filterAt (keep : List String → String × Attribute → Bool) (path : List String) (b : Block)
    (hb : b.isNamed = true) : (b.filterAt keep path).isNamed = true := by
  induction path, b using Block.filterAt.induct _ (fun path nested =>
    nestedNamed nested = true → nestedNamed (filterNestedAt keep path nested) = true) with
  | case1 path attributes nested description ih =>
    rw [Block.isNamed, Bool.and_eq_true] at hb
    rw [Block.filterAt, Block.isNamed, Bool.and_eq_true]
    exact ⟨List.all_eq_true.mpr fun e he => List.all_eq_true.mp hb.1 e (List.mem_filter.mp he).1, ih hb.2⟩
  | case2 => rfl
  | case3 path name nesting rest ih =>
    rename_i hnested
    rw [nestedNamed, Bool.and_eq_true] at hnested
    rw [filterNestedAt, nestedNamed, Bool.and_eq_true]
    exact ⟨hnested.1, ih hnested.2⟩
  | case4 path name nesting b rest ihb ih =>
    rename_i hnested
    simp only [nestedNamed, Bool.and_eq_true] at hnested
    simp only [filterNestedAt, nestedNamed, Bool.and_eq_true]
    exact ⟨⟨hnested.1.1, ihb hnested.1.2⟩, ih hnested.2⟩

/-! ## The names of a block -/

theorem mem_names_nestedOutline {nested : List (String × Nesting × Option Block)} {name : String} :
    name ∈ (nestedOutline nested).map Outline.name ↔
      ∃ nesting inner, (name, nesting, some inner) ∈ nested ∧ nesting.mode ∈ NestingMode.written := by
  induction nested with
  | nil => simp [nestedOutline]
  | cons entry rest ih =>
    obtain ⟨name', nesting', _ | b⟩ := entry
    · rw [nestedOutline, ih]
      simp
    · rw [nestedOutline]
      by_cases hmode : nesting'.mode ∈ NestingMode.written
      · rw [if_pos hmode, List.map_cons, List.mem_cons, ih]
        constructor
        · rintro (rfl | ⟨nesting, inner, hmem, hwritten⟩)
          · exact ⟨nesting', b, List.mem_cons_self, hmode⟩
          · exact ⟨nesting, inner, List.mem_cons_of_mem _ hmem, hwritten⟩
        · rintro ⟨nesting, inner, hmem, hwritten⟩
          rcases List.mem_cons.mp hmem with heq | hmem
          · cases heq
            exact Or.inl rfl
          · exact Or.inr ⟨nesting, inner, hmem, hwritten⟩
      · rw [if_neg hmode, ih]
        constructor
        · rintro ⟨nesting, inner, hmem, hwritten⟩
          exact ⟨nesting, inner, List.mem_cons_of_mem _ hmem, hwritten⟩
        · rintro ⟨nesting, inner, hmem, hwritten⟩
          rcases List.mem_cons.mp hmem with heq | hmem
          · cases heq
            exact absurd hwritten hmode
          · exact ⟨nesting, inner, hmem, hwritten⟩

theorem mem_names_outline {b : Block} {name : String} :
    name ∈ b.outline.map Outline.name ↔ (∃ a, (name, a) ∈ b.attributes) ∨
      ∃ nesting inner, (name, nesting, some inner) ∈ b.nested ∧ nesting.mode ∈ NestingMode.written := by
  obtain ⟨attributes, nested, description⟩ := b
  have hperm : (Block.mk attributes nested description).outline.Perm
      (attributes.map (fun e => Outline.argument e.1) ++ nestedOutline nested) := by
    rw [Block.outline]
    exact List.perm_insertionSort _ _
  rw [(hperm.map Outline.name).mem_iff, List.map_append, List.mem_append, mem_names_nestedOutline, List.map_map]
  simp [Block.attributes, Block.nested, Outline.name]

/-- Whether a block of a resource of this type has an entry of this name for a configuration to write, after pruning
and after removals. -/
def Block.Offers (removals : List Refusals) (type name : String) (b : Block) : Prop :=
  (∃ e ∈ b.attributes, e.1 = name ∧ e.2.IsConfigurable ∧
    ∀ refusals ∈ removals, ∀ refusal ∈ refusals, typeOf refusal.1 = type.toList → name ∉ refusal.2) ∨
  ∃ e ∈ b.nested, e.1 = name ∧ e.2.1.mode ∈ NestingMode.written ∧ e.2.2.isSome = true

instance (removals : List Refusals) (type name : String) (b : Block) : Decidable (b.Offers removals type name) := by
  unfold Block.Offers
  exact inferInstance

/-! ## Keys of an iteration -/

namespace Body

/-- The variable that an iteration runs over, and the field of an element that is its key. -/
def keyed? (iteration : String) : Option (String × String) :=
  (Text.after? "\x7b for i in coalesce(var.".toList iteration.toList).bind fun rest =>
  (Text.splitAt? ',' rest).bind fun (name, rest) =>
  (Text.after? " []) : i.".toList rest).bind fun rest =>
  (Text.splitAt? ' ' rest).map fun (key, _) => (String.ofList name, String.ofList key)

theorem keyed?_iteration {variableName : String} (h : ',' ∉ variableName.toList) :
    keyed? (iteration variableName) = some (variableName, "name") := by
  have hrest : variableName.toList ++ ", []) : i.name => i \x7d".toList
      = variableName.toList ++ ',' :: (" []) : i.".toList ++ ("name".toList ++ ' ' :: "=> i \x7d".toList)) := rfl
  have hkey : ' ' ∉ "name".toList := by decide
  rw [keyed?, toList_iteration, hrest]
  simp only [Text.after?_append, Option.bind_some, Text.splitAt?_append ',' _ _ h,
    Text.splitAt?_append ' ' _ _ hkey, Option.map_some, String.ofList_toList]

end Body

/-- A resource and the variables for it, in which the resource is repeated over the only variable and its keys are
taken from a field that this variable has. -/
def IsKeyedByField (part : Body.Resource × List Inputs.Declaration) : Prop :=
  ∃ iteration name key fields, part.1.iteration = some iteration ∧ Body.keyed? iteration = some (name, key) ∧
    part.2 = [.mk name fields] ∧ key ∈ fields.map Inputs.Declaration.name

namespace ModuleFiles

/-- The resources of a module, each with the variables for it. -/
def ReadsAs (m : ModuleFiles) (parts : List (Body.Resource × List Inputs.Declaration)) : Prop :=
  Body.Resource.readAll m.main = some (parts.map (·.1)) ∧ Inputs.readAll m.inputs = some (parts.flatMap (·.2))

/-- Every resource that is repeated takes its keys from a field of the variable for it. -/
def KeysDeclared (m : ModuleFiles) : Prop :=
  ∃ parts, m.ReadsAs parts ∧ ∀ part ∈ parts, part.1.iteration ≠ none → IsKeyedByField part

end ModuleFiles

namespace Plan

variable {p : Plan} {s : SchemaSet}

open SchemaSet (Pass)

/-- The passes before a module is written: what is requested is kept, it is pruned, and what was refused goes. -/
def passes (p : Plan) (removals : List Refusals) : List Pass :=
  .filter (p.requests.map (·.type)) :: .prune :: removals.map .remove

theorem admits_passes (removals : List Refusals) {r : Request} (hr : r ∈ p.requests) :
    ∀ q ∈ p.passes removals, q.Admits r.type := by
  have htype : r.type ∈ p.requests.map (·.type) := List.mem_map.mpr ⟨r, hr, rfl⟩
  unfold passes
  simp only [List.forall_mem_cons, List.forall_mem_map]
  exact ⟨htype, trivial, fun _ _ => trivial⟩

theorem spares_passes {removals : List Refusals} {type : String} {e : String × Attribute} :
    (∀ q ∈ p.passes removals, q.Spares type [] e) ↔ e.2.IsConfigurable ∧
      ∀ refusals ∈ removals, ∀ refusal ∈ refusals, typeOf refusal.1 = type.toList → e.1 ∉ refusal.2 := by
  unfold passes
  simp [Pass.Spares]

theorem found_after_passes (hs : s.isNamed = true) (hk : s.providers.Sorted) (removals : List Refusals) :
    p.found (s.after (p.passes removals)) = (p.found s).map fun e =>
      (e.1, { e.2 with block := SchemaSet.blockLeft (p.passes removals) e.1.type e.2.block }) := by
  unfold found
  rw [List.map_filterMap]
  apply List.filterMap_congr
  intro r hr
  rw [SchemaSet.resource?_after hk (SchemaSet.pointFree_of_isNamed hs) (admits_passes removals hr), Option.map_map,
    Option.map_map]
  rfl

/-- What is left of a block has an entry of a name exactly when the block offers one. -/
theorem mem_names_blockLeft {removals : List Refusals} {type name : String} {b : Block} :
    name ∈ (SchemaSet.blockLeft (p.passes removals) type b).outline.map Outline.name ↔
      b.Offers removals type name := by
  obtain ⟨attributes, nested, description⟩ := b
  rw [mem_names_outline, SchemaSet.blockLeft, Block.filterAt]
  simp only [Block.attributes, Block.nested, List.mem_filter, decide_eq_true_eq, spares_passes, mem_filterNestedAt]
  refine or_congr ⟨?_, ?_⟩ ⟨?_, ?_⟩
  · rintro ⟨a, hmem, hspared⟩
    exact ⟨(name, a), hmem, rfl, hspared⟩
  · rintro ⟨⟨_, a⟩, hmem, rfl, hspared⟩
    exact ⟨a, hmem, hspared⟩
  · rintro ⟨nesting, _, ⟨inner, hmem, rfl⟩, hmode⟩
    exact ⟨_, hmem, rfl, hmode, rfl⟩
  · rintro ⟨⟨_, nesting, body⟩, hmem, rfl, hmode, hbody⟩
    obtain ⟨inner, rfl⟩ := Option.isSome_iff_exists.mp hbody
    exact ⟨nesting, _, ⟨inner, hmem, rfl⟩, hmode⟩

theorem findsNamed_after_passes (hs : s.isNamed = true) (hk : s.providers.Sorted) (removals : List Refusals) :
    p.FindsNamed (s.after (p.passes removals)) := by
  intro e he
  rw [found_after_passes hs hk] at he
  obtain ⟨found, hfound, rfl⟩ := List.mem_map.mp he
  have hnamed := findsNamed_of_isNamed hs found hfound
  exact ⟨hnamed.1, isNamed_filterAt _ _ _ hnamed.2⟩

/-- The part of a module for a request: the resource, and the variables for it. -/
def partOf (comments : Bool) (e : Request × ResourceSchema) : Body.Resource × List Inputs.Declaration :=
  (Body.Resource.ofRequest e.1 e.2, Inputs.ofRequest comments e.1 e.2)

section

variable {e : Request × ResourceSchema}

theorem iteration_partOf (comments : Bool) (hmode : e.1.mode = .multiple) :
    (partOf comments e).1.iteration = some (Body.iteration (Naming.variableName e.1.type)) := by
  simp [partOf, Body.Resource.ofRequest, hmode]

theorem declared_partOf (comments : Bool) (hmode : e.1.mode = .multiple) :
    (partOf comments e).2
      = [.mk (Naming.variableName e.1.type) (Inputs.declarations comments e.2.block .multiple)] := by
  simp [partOf, Inputs.ofRequest, Inputs.variablesOf, hmode, Inputs.Variable.declaration?, Inputs.declarations]

theorem declaredNames_partOf (comments : Bool) (hmode : e.1.mode = .multiple) :
    (partOf comments e).2.map Inputs.Declaration.name = [Naming.variableName e.1.type] := by
  rw [declared_partOf comments hmode]
  rfl

theorem keyed?_partOf (comments : Bool) (hmode : e.1.mode = .multiple)
    (ht : Text.isIdentifier e.1.type.toList = true) :
    (partOf comments e).1.iteration.bind Body.keyed? = some (Naming.variableName e.1.type, "name") := by
  rw [iteration_partOf comments hmode]
  exact Body.keyed?_iteration (Naming.not_mem_variableName ht ',' (by decide))

/-- The key of a collection is among the names that are left of its block. -/
theorem isKeyedByField_partOf (comments : Bool) (hmode : e.1.mode = .multiple)
    (ht : Text.isIdentifier e.1.type.toList = true) :
    IsKeyedByField (partOf comments e) ↔ "name" ∈ e.2.block.outline.map Outline.name := by
  have hkeyed := keyed?_partOf comments hmode ht
  have hnames := (Inputs.mirrors_declarations comments e.2.block .multiple).names
  rw [iteration_partOf comments hmode, Option.bind_some] at hkeyed
  unfold IsKeyedByField
  rw [iteration_partOf comments hmode, declared_partOf comments hmode, ← hnames]
  constructor
  · rintro ⟨_, name, key, fields, heach, hkeyed', hfields, hkey⟩
    cases heach
    cases hfields
    rw [hkeyed] at hkeyed'
    cases hkeyed'
    exact hkey
  · intro hkey
    exact ⟨_, _, "name", _, rfl, hkeyed, rfl, hkey⟩

end

/-- After the passes, a module reads back as a resource and the variables for it for every request that the provider
has a schema for, and the resources of collections are repeated. Such a collection is keyed by the field `name` of the
elements of its own variable, and this variable has the field exactly when the block of the schema offers an entry of
this name. -/
theorem iteration_keys_declared_iff (p : Plan) (s : SchemaSet) (hs : s.isNamed = true) (hk : s.providers.Sorted)
    (removals : List Refusals) :
    ∃ parts, (p.generate (s.after (p.passes removals))).ReadsAs parts ∧
      List.Forall₂ (fun e part => (part.1.iteration ≠ none ↔ e.1.mode = .multiple) ∧
        (e.1.mode = .multiple →
          part.1.iteration.bind Body.keyed? = some (Naming.variableName e.1.type, "name") ∧
          part.2.map Inputs.Declaration.name = [Naming.variableName e.1.type] ∧
          (IsKeyedByField part ↔ e.2.block.Offers removals e.1.type "name")))
        (p.found s) parts := by
  have hnamed := findsNamed_after_passes (p := p) hs hk removals
  have hmain := read_main hnamed
  have hinputs := read_inputs hnamed
  refine ⟨(p.found (s.after (p.passes removals))).map (partOf p.comments), ⟨?_, ?_⟩, ?_⟩
  · rw [hmain, List.map_map]
    rfl
  · rw [hinputs, List.flatMap_map]
    rfl
  · rw [found_after_passes hs hk, List.map_map, List.forall₂_map_right_iff, List.forall₂_same]
    intro e he
    refine ⟨?_, ?_⟩
    · simp only [Function.comp, partOf, Body.Resource.ofRequest]
      cases e.1.mode <;> simp
    · intro hmode
      have htype := (findsNamed_of_isNamed hs e he).1
      refine ⟨keyed?_partOf p.comments hmode htype, declaredNames_partOf p.comments hmode, ?_⟩
      rw [← mem_names_blockLeft (p := p)]
      exact isKeyedByField_partOf p.comments hmode htype

/-- Types of one provider. One has no name, that of another only the provider sets. -/
def keySchemas : SchemaSet :=
  ⟨"1.0", [("host/hashicorp/aws", [
    ("aws_instance", ⟨1, .mk [("ami", ⟨some .string, "", true, false, false⟩),
      ("tags", ⟨some (.map .string), "", false, true, false⟩)] [] ""⟩),
    ("aws_role", ⟨0, .mk [("name", ⟨some .string, "", true, false, false⟩)] [] ""⟩),
    ("aws_vpc", ⟨0, .mk [("name", ⟨some .string, "", false, false, true⟩)] [] ""⟩),
    ("aws_zone", ⟨0, .mk [("name", ⟨some .string, "", false, true, true⟩)] [] ""⟩)])]⟩

/-- The plan for collections of resources of these types. -/
def keyPlan (types : List String) : Plan :=
  instancePlan (types.map fun type => ⟨type, .multiple, ⟨"hashicorp", "aws", ">= 0"⟩⟩)

theorem iteration_keys_declared_iff_keySchemas :
    ∃ instances roles vpcs zones,
      ((keyPlan ["aws_instance", "aws_role", "aws_vpc", "aws_zone"]).generate (keySchemas.after
        ((keyPlan ["aws_instance", "aws_role", "aws_vpc", "aws_zone"]).passes [[("aws_role.this", ["name"])]]))).ReadsAs
          [instances, roles, vpcs, zones] ∧
      instances.1.iteration.bind Body.keyed? = some ("instances", "name") ∧
      zones.1.iteration.bind Body.keyed? = some ("zones", "name") ∧
      ¬IsKeyedByField instances ∧ ¬IsKeyedByField roles ∧ ¬IsKeyedByField vpcs ∧ IsKeyedByField zones := by
  obtain ⟨parts, hreads, hparts⟩ :=
    iteration_keys_declared_iff (keyPlan ["aws_instance", "aws_role", "aws_vpc", "aws_zone"]) keySchemas (by decide)
      (by unfold Table.Sorted; decide) [[("aws_role.this", ["name"])]]
  rcases hparts with - | ⟨hinstances, - | ⟨hroles, - | ⟨hvpcs, - | ⟨hzones, - | -⟩⟩⟩⟩
  obtain ⟨hinstancesKeyed, -, hinstances⟩ := hinstances.2 rfl
  obtain ⟨hzonesKeyed, -, hzones⟩ := hzones.2 rfl
  refine ⟨_, _, _, _, hreads, hinstancesKeyed, hzonesKeyed, ?_, ?_, ?_, ?_⟩
  · rw [hinstances]
    decide
  · rw [(hroles.2 rfl).2.2]
    decide
  · rw [(hvpcs.2 rfl).2.2]
    decide
  · rw [hzones]
    decide

/-- Accepted requests and names that are identifiers do not give every collection its key: a block need not have an
entry of this name. -/
theorem iteration_key_may_be_missing :
    ¬ ∀ (arguments inputs : List String) (providers : Table Provider) (p : Plan) (s : SchemaSet)
        (removals : List Refusals),
      Arguments.providers arguments = .ok providers → Arguments.requests providers inputs = .ok p.requests →
      s.isNamed = true → s.providers.Sorted → (p.generate (s.after (p.passes removals))).KeysDeclared := by
  intro h
  have hnamed : keySchemas.isNamed = true := by decide
  have hsorted : keySchemas.providers.Sorted := by unfold Table.Sorted; decide
  obtain ⟨parts, ⟨hmain, hinputs⟩, hkeyed⟩ := h ["hashicorp/aws"] ["aws_instance"] _
    (keyPlan ["aws_instance"]) keySchemas [] rfl rfl hnamed hsorted
  have hfinds := findsNamed_after_passes (p := keyPlan ["aws_instance"]) hnamed hsorted []
  have hfound := found_after_passes (p := keyPlan ["aws_instance"]) hnamed hsorted []
  rw [read_main hfinds, hfound] at hmain
  rw [read_inputs hfinds, hfound] at hinputs
  -- There is one resource, so all variables are for it.
  obtain ⟨part, rfl, hresource⟩ := List.map_eq_singleton_iff.mp (Option.some.inj hmain).symm
  rw [List.flatMap_singleton] at hinputs
  have hpart : part = partOf false _ := Prod.ext hresource (Option.some.inj hinputs).symm
  have hkey := hkeyed part (List.mem_singleton_self part) (by rw [hpart]; exact Option.some_ne_none _)
  rw [hpart, isKeyedByField_partOf false rfl (by decide), mem_names_blockLeft] at hkey
  exact absurd hkey (by decide)

end Plan

end ModuleScaffold
