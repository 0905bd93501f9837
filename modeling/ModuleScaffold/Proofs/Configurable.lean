import ModuleScaffold.Schema.Narrowing
import ModuleScaffold.Proofs.Agreement
import ModuleScaffold.Proofs.Reading.Module

/-! # What a module lets one set

A configuration may set the attributes of a block but for those that only the provider sets, and the same inside its
nested blocks. Main statement: the module of a narrowed schema set has all of this for every request, at every depth,
and nothing else. -/

namespace ModuleScaffold

/-- Whether a configuration may set an attribute. -/
def Attribute.IsConfigurable (a : Attribute) : Prop := ¬(a.computed = true ∧ a.required = false ∧ a.optional = false)

instance : DecidablePred Attribute.IsConfigurable := fun a => by unfold Attribute.IsConfigurable; exact inferInstance

mutual

/-- What a configuration may set in a block: attributes, and nested blocks that have a body and a mode that can be
written. -/
def Block.configurable : Block → List Outline
  | .mk attributes nested _ =>
    ((attributes.filter fun e => e.2.IsConfigurable).map (fun e => Outline.argument e.1)
      ++ nestedConfigurable nested).insertionSort Outline.Precedes

def nestedConfigurable : List (String × Nesting × Option Block) → List Outline
  | [] => []
  | (_, _, none) :: rest => nestedConfigurable rest
  | (name, nesting, some b) :: rest =>
    if nesting.mode ∈ NestingMode.written then .block name b.configurable :: nestedConfigurable rest
    else nestedConfigurable rest

end

/-! ## Pruning -/

theorem not_isSetByProvider (a : Attribute) : (!a.isSetByProvider) = decide a.IsConfigurable := by
  cases hc : a.computed <;> cases hr : a.required <;> cases ho : a.optional <;>
    simp [Attribute.isSetByProvider, Attribute.IsConfigurable, hc, hr, ho]

theorem outline_prune (b : Block) : b.prune.outline = b.configurable := by
  induction b using Block.prune.induct _ (fun nested =>
    nestedOutline (pruneNested nested) = nestedConfigurable nested) with
  | case1 attributes nested description ih =>
    rw [Block.prune, Block.outline, Block.configurable, ih]
    simp only [not_isSetByProvider]
  | case2 => rw [pruneNested, nestedOutline, nestedConfigurable]
  | case3 name nesting rest ih => rw [pruneNested, nestedOutline, nestedConfigurable, ih]
  | case4 name nesting b rest ihb ih => rw [pruneNested, nestedOutline, nestedConfigurable, ihb, ih]

theorem nested_prune (b : Block) : b.prune.nested = b.nested.map fun e => (e.1, e.2.1, e.2.2.map Block.prune) := by
  obtain ⟨attributes, nested, description⟩ := b
  rw [Block.prune, Block.nested, Block.nested]
  induction nested with
  | nil => rw [pruneNested]; rfl
  | cons e rest ih =>
    obtain ⟨name, nesting, _ | inner⟩ := e
    · rw [pruneNested, ih]; rfl
    · rw [pruneNested, ih]; rfl

theorem isNamed_prune (b : Block) (hb : b.isNamed = true) : b.prune.isNamed = true := by
  induction b using Block.prune.induct _ (fun nested =>
    nestedNamed nested = true → nestedNamed (pruneNested nested) = true) with
  | case1 attributes nested description ih =>
    rw [Block.isNamed, Bool.and_eq_true] at hb
    rw [Block.prune, Block.isNamed, Bool.and_eq_true]
    exact ⟨List.all_eq_true.mpr fun e he => List.all_eq_true.mp hb.1 e (List.mem_filter.mp he).1, ih hb.2⟩
  | case2 => rfl
  | case3 name nesting rest ih =>
    rename_i hnested
    rw [nestedNamed, Bool.and_eq_true] at hnested
    rw [pruneNested, nestedNamed, Bool.and_eq_true]
    exact ⟨hnested.1, ih hnested.2⟩
  | case4 name nesting b rest ihb ih =>
    rename_i hnested
    simp only [nestedNamed, Bool.and_eq_true] at hnested
    simp only [pruneNested, nestedNamed, Bool.and_eq_true]
    exact ⟨⟨hnested.1.1, ihb hnested.1.2⟩, ih hnested.2⟩

/-! ## Places in a block -/

/-- The block at a path of names of nested blocks that have a body and a mode that can be written. -/
inductive Block.Reaches : Block → List String → Block → Prop where
  | here (b : Block) : Reaches b [] b
  | inside {b inner c : Block} {name : String} {nesting : Nesting} {path : List String} :
      (name, nesting, some inner) ∈ b.nested → nesting.mode ∈ NestingMode.written → Reaches inner path c →
        Reaches b (name :: path) c

/-- The entries at a path of names of blocks. -/
inductive Outline.At : List Outline → List String → List Outline → Prop where
  | here (os : List Outline) : At os [] os
  | inside {os inner found : List Outline} {name : String} {path : List String} :
      .block name inner ∈ os → At inner path found → At os (name :: path) found

/-- Entries that are what a configuration may set in a block: an argument stands at a path exactly when an attribute
at this path of the block may be set, and a block exactly when there is one with a body and a mode that can be
written. -/
structure Block.IsConfiguredBy (b : Block) (os : List Outline) : Prop where
  ordered : os = b.configurable
  arguments : ∀ path name, (∃ found, Outline.At os path found ∧ .argument name ∈ found) ↔
    ∃ c a, b.Reaches path c ∧ (name, a) ∈ c.attributes ∧ a.IsConfigurable
  blocks : ∀ path name, (∃ found inner, Outline.At os path found ∧ .block name inner ∈ found) ↔
    ∃ c nesting inner, b.Reaches path c ∧ (name, nesting, some inner) ∈ c.nested ∧
      nesting.mode ∈ NestingMode.written

theorem not_argument_mem_nestedConfigurable (nested : List (String × Nesting × Option Block)) (name : String) :
    .argument name ∉ nestedConfigurable nested := by
  induction nested with
  | nil => simp [nestedConfigurable]
  | cons e rest ih =>
    obtain ⟨name', nesting, _ | b⟩ := e
    · rw [nestedConfigurable]
      exact ih
    · rw [nestedConfigurable]
      split
      · simpa using ih
      · exact ih

theorem argument_mem_configurable (b : Block) (name : String) :
    .argument name ∈ b.configurable ↔ ∃ a, (name, a) ∈ b.attributes ∧ a.IsConfigurable := by
  cases b with
  | mk attributes nested description =>
    rw [Block.configurable, List.mem_insertionSort, List.mem_append,
      or_iff_left (not_argument_mem_nestedConfigurable nested name)]
    simp only [List.mem_map, List.mem_filter, decide_eq_true_eq, Outline.argument.injEq, Prod.exists,
      Block.attributes]
    constructor
    · rintro ⟨name', a, ⟨hmem, ha⟩, rfl⟩
      exact ⟨a, hmem, ha⟩
    · rintro ⟨a, hmem, ha⟩
      exact ⟨name, a, ⟨hmem, ha⟩, rfl⟩

theorem block_mem_configurable (b : Block) (name : String) (inner : List Outline) :
    .block name inner ∈ b.configurable ↔
      ∃ nesting c, (name, nesting, some c) ∈ b.nested ∧ nesting.mode ∈ NestingMode.written ∧
        inner = c.configurable := by
  rw [← outline_prune, block_mem_outline, nested_prune]
  constructor
  · rintro ⟨nesting, c, hmem, hwritten, rfl⟩
    obtain ⟨⟨label, nested, _ | d⟩, he, heq⟩ := List.mem_map.mp hmem
    · cases heq
    · cases heq
      exact ⟨nested, d, he, hwritten, outline_prune d⟩
  · rintro ⟨nesting, d, he, hwritten, rfl⟩
    exact ⟨nesting, d.prune, List.mem_map.mpr ⟨_, he, rfl⟩, hwritten, (outline_prune d).symm⟩

/-- Where the blocks among the entries for a block are those that can be written, with the entries for their bodies, the
entries at a path are those for the block at this path. -/
theorem Outline.at_iff {entries : Block → List Outline}
    (h : ∀ b name inner, .block name inner ∈ entries b ↔
      ∃ nesting c, (name, nesting, some c) ∈ b.nested ∧ nesting.mode ∈ NestingMode.written ∧ inner = entries c)
    (b : Block) (path : List String) (found : List Outline) :
    Outline.At (entries b) path found ↔ ∃ c, b.Reaches path c ∧ found = entries c := by
  induction path generalizing b with
  | nil =>
    constructor
    · intro hat
      cases hat
      exact ⟨b, .here b, rfl⟩
    · rintro ⟨c, hreaches, rfl⟩
      cases hreaches
      exact .here _
  | cons name path ih =>
    constructor
    · intro hat
      cases hat with
      | inside hmem hat =>
        obtain ⟨nesting, c, hnested, hwritten, rfl⟩ := (h b name _).mp hmem
        obtain ⟨d, hreaches, rfl⟩ := (ih c).mp hat
        exact ⟨d, .inside hnested hwritten hreaches, rfl⟩
    · rintro ⟨d, hreaches, rfl⟩
      cases hreaches with
      | inside hnested hwritten hreaches =>
        exact .inside ((h b name _).mpr ⟨_, _, hnested, hwritten, rfl⟩) ((ih _).mpr ⟨d, hreaches, rfl⟩)

theorem at_configurable (b : Block) (path : List String) (found : List Outline) :
    Outline.At b.configurable path found ↔ ∃ c, b.Reaches path c ∧ found = c.configurable :=
  Outline.at_iff block_mem_configurable b path found

theorem isConfiguredBy_configurable (b : Block) : b.IsConfiguredBy b.configurable := by
  refine ⟨rfl, ?_, ?_⟩
  · intro path name
    simp only [at_configurable]
    constructor
    · rintro ⟨_, ⟨c, hreaches, rfl⟩, hmem⟩
      obtain ⟨a, hattribute, ha⟩ := (argument_mem_configurable c name).mp hmem
      exact ⟨c, a, hreaches, hattribute, ha⟩
    · rintro ⟨c, a, hreaches, hattribute, ha⟩
      exact ⟨_, ⟨c, hreaches, rfl⟩, (argument_mem_configurable c name).mpr ⟨a, hattribute, ha⟩⟩
  · intro path name
    simp only [at_configurable]
    constructor
    · rintro ⟨_, inner, ⟨c, hreaches, rfl⟩, hmem⟩
      obtain ⟨nesting, d, hnested, hwritten, -⟩ := (block_mem_configurable c name inner).mp hmem
      exact ⟨c, nesting, d, hreaches, hnested, hwritten⟩
    · rintro ⟨c, nesting, d, hreaches, hnested, hwritten⟩
      exact ⟨_, _, ⟨c, hreaches, rfl⟩, (block_mem_configurable c name _).mpr ⟨nesting, d, hnested, hwritten, rfl⟩⟩

/-! ## Narrowing a schema set -/

namespace SchemaSet

variable {s : SchemaSet}

/-- The providers of every schema set that is read stand in the order of their addresses. -/
theorem sorted_of_read {input : String} (h : SchemaSet.read input = .ok s) : s.providers.Sorted := by
  unfold SchemaSet.read at h
  cases hread : Json.read Schema.vocabulary (.record .schemas) input with
  | error problem =>
    rw [hread] at h
    cases h
  | ok value =>
    rw [hread] at h
    cases h
    exact Table.sorted_ofList _

theorem resource?_mapBlocks (f : String → Block → Block) (key type : String) :
    (s.mapBlocks f).resource? key type = (s.resource? key type).map fun r => { r with block := f type r.block } := by
  have hprovider := Table.find?_map (fun (_ : String) (resources : Table ResourceSchema) =>
    resources.map fun e => (e.1, { e.2 with block := f e.1 e.2.block })) key s.providers
  unfold resource?
  rw [mapBlocks, hprovider]
  cases s.providers.find? key with
  | none => rfl
  | some resources => exact Table.find?_map (fun type r => { r with block := f type r.block }) type resources

/-- A requested resource is kept: a provider whose address stands once is dropped only if nothing of it is asked
for. -/
theorem resource?_keepRequested (hk : s.providers.Sorted) {types : List String} {type : String} (ht : type ∈ types)
    (key : String) : (s.keepRequested types).resource? key type = s.resource? key type := by
  have hprovider : (s.keepRequested types).providers.find? key
      = ((s.providers.find? key).map fun resources => resources.filter (·.1 ∈ types)).filter fun kept =>
          !kept.isEmpty := by
    have hsorted := hk.map fun (_ : String) (resources : Table ResourceSchema) => resources.filter (·.1 ∈ types)
    rw [← Table.find?_map fun (_ : String) (resources : Table ResourceSchema) => resources.filter (·.1 ∈ types)]
    exact hsorted.find?_filter (fun kept => !kept.isEmpty) key
  unfold resource?
  rw [hprovider]
  cases s.providers.find? key with
  | none => rfl
  | some resources =>
    have hfind := Table.find?_filter_names (fun name => decide (name ∈ types)) (by simpa using ht) resources
    rw [Option.map_some, Option.filter_some, Option.bind_some, ← hfind]
    cases hkept : (resources.filter fun e => decide (e.1 ∈ types)).isEmpty with
    | false => rfl
    | true =>
      rw [List.isEmpty_iff.mp hkept]
      rfl

end SchemaSet

namespace Plan

variable {p : Plan} {s : SchemaSet}

/-- Narrowing keeps what is found for the requests, with the blocks pruned. -/
theorem found_narrowed (hk : s.providers.Sorted) :
    p.found (s.keepRequested (p.requests.map (·.type))).prune
      = (p.found s).map fun e => (e.1, { e.2 with block := e.2.block.prune }) := by
  unfold found
  rw [List.map_filterMap]
  apply List.filterMap_congr
  intro r hr
  have ht : r.type ∈ p.requests.map (·.type) := List.mem_map.mpr ⟨r, hr, rfl⟩
  rw [SchemaSet.prune, SchemaSet.resource?_mapBlocks, SchemaSet.resource?_keepRequested hk ht, Option.map_map,
    Option.map_map]
  rfl

/-- What a request for a resource with this block declares: a variable for every entry for a single resource, and a
field of one variable for a collection. -/
def IsDeclared (r : Request) (b : Block) (ds : List Inputs.Declaration) : Prop :=
  match r.mode with
  | .single => ∃ os, b.IsConfiguredBy os ∧ Mirrors os ds
  | .multiple => ∃ os inner, b.IsConfiguredBy os ∧ ds = [.mk (Naming.variableName r.type) inner] ∧ Mirrors os inner

theorem isDeclared_ofRequest (comments : Bool) (r : Request) (schema : ResourceSchema) :
    IsDeclared r schema.block (Inputs.ofRequest comments r { schema with block := schema.block.prune }) := by
  have hconfigured := isConfiguredBy_configurable schema.block
  have hmirrors := Inputs.mirrors_declarations comments schema.block.prune r.mode
  rw [outline_prune] at hmirrors
  unfold IsDeclared Inputs.ofRequest
  cases hmode : r.mode with
  | single =>
    rw [hmode] at hmirrors
    exact ⟨_, hconfigured, hmirrors⟩
  | multiple =>
    rw [hmode] at hmirrors
    exact ⟨_, _, hconfigured, rfl, hmirrors⟩

/-- The module of a narrowed schema set reads back as one resource, and as the variables for it, for every request
that the provider has a schema for, in the order of the requests. Both have what a configuration may set in the block
of the schema, at every depth, and nothing else. -/
theorem narrowed_module_is_configurable (p : Plan) (s : SchemaSet) (hs : s.isNamed = true)
    (hk : s.providers.Sorted) :
    ∃ resources declared,
      Body.Resource.readAll (p.generate (s.keepRequested (p.requests.map (·.type))).prune).main = some resources ∧
      Inputs.readAll (p.generate (s.keepRequested (p.requests.map (·.type))).prune).inputs
        = some declared.flatten ∧
      List.Forall₂ (fun e resource => resource.type = e.1.type ∧ resource.label = "this" ∧
        e.2.block.IsConfiguredBy (Body.Entry.outlines resource.entries)) (p.found s) resources ∧
      List.Forall₂ (fun e ds => IsDeclared e.1 e.2.block ds) (p.found s) declared := by
  have hfinds : p.FindsNamed (s.keepRequested (p.requests.map (·.type))).prune := by
    intro e he
    rw [found_narrowed hk] at he
    obtain ⟨found, hfound, rfl⟩ := List.mem_map.mp he
    have hnamed := findsNamed_of_isNamed hs found hfound
    exact ⟨hnamed.1, isNamed_prune _ hnamed.2⟩
  have hmain := read_main hfinds
  have hinputs := read_inputs hfinds
  rw [found_narrowed hk, List.map_map] at hmain
  rw [found_narrowed hk, List.flatMap_map, List.flatMap_def] at hinputs
  refine ⟨_, _, hmain, hinputs, ?_, ?_⟩
  · rw [List.forall₂_map_right_iff, List.forall₂_same]
    intro e _
    have hconfigured := isConfiguredBy_configurable e.2.block
    refine ⟨rfl, rfl, ?_⟩
    rw [Function.comp, Body.Resource.ofRequest, Body.Entry.outlines_ofStatements, outlines_items, outline_prune]
    exact hconfigured
  · rw [List.forall₂_map_right_iff, List.forall₂_same]
    intro e _
    exact isDeclared_ofRequest p.comments e.1 e.2

/-- A block with attributes that only the provider sets at every depth, one of them in a block that is left empty,
and with nested blocks that cannot be written. -/
def volumes : Block :=
  .mk [("arn", ⟨some .string, "", false, false, true⟩), ("size", ⟨some .number, "", true, false, true⟩)]
    [("disk", ⟨.list, 0, 0⟩, some (.mk [("id", ⟨some .string, "", false, false, true⟩),
        ("path", ⟨some .string, "", false, true, true⟩)]
        [("mount", ⟨.set, 0, 0⟩, some (.mk [("uuid", ⟨none, "", false, false, true⟩)] [] ""))] "")),
      ("quota", ⟨.map, 0, 0⟩, some (.mk [("limit", ⟨none, "", true, false, false⟩)] [] "")),
      ("tag", ⟨.single, 0, 1⟩, none)] ""

example : volumes.configurable
    = [.block "disk" [.block "mount" [], .argument "path"], .argument "size"] := by
  rfl

/-- A provider without a requested resource beside one with two of them. -/
def volumeSchemas : SchemaSet :=
  ⟨"1.0", [("host/owner/other", [("other_volume", ⟨1, volumes⟩)]),
    ("host/owner/vm", [("vm_disk", ⟨2, volumes⟩), ("vm_machine", ⟨0, volumes⟩), ("vm_zone", ⟨0, volumes⟩)])]⟩

def volumeRequest (type : String) (mode : Mode) : Request := ⟨type, mode, ⟨"owner", "vm", ">= 0"⟩⟩

def volumePlan : Plan :=
  ⟨[volumeRequest "vm_machine" .multiple, volumeRequest "vm_host" .multiple, volumeRequest "vm_disk" .single],
    "host", true⟩

theorem narrowed_module_is_configurable_volumes :
    ∃ resources declared,
      Body.Resource.readAll (volumePlan.generate
        (volumeSchemas.keepRequested (volumePlan.requests.map (·.type))).prune).main = some resources ∧
      Inputs.readAll (volumePlan.generate
        (volumeSchemas.keepRequested (volumePlan.requests.map (·.type))).prune).inputs = some declared.flatten ∧
      List.Forall₂ (fun (e : Request × ResourceSchema) resource => resource.type = e.1.type ∧
        resource.label = "this" ∧ e.2.block.IsConfiguredBy (Body.Entry.outlines resource.entries))
        [(volumeRequest "vm_machine" .multiple, ⟨0, volumes⟩), (volumeRequest "vm_disk" .single, ⟨2, volumes⟩)]
        resources ∧
      List.Forall₂ (fun (e : Request × ResourceSchema) ds => IsDeclared e.1 e.2.block ds)
        [(volumeRequest "vm_machine" .multiple, ⟨0, volumes⟩), (volumeRequest "vm_disk" .single, ⟨2, volumes⟩)]
        declared :=
  narrowed_module_is_configurable volumePlan volumeSchemas (by decide) (by unfold Table.Sorted; decide)

end Plan

end ModuleScaffold
