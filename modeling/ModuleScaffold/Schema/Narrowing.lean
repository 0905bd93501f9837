import ModuleScaffold.Schema.Document
import ModuleScaffold.Log
import ModuleScaffold.Text.Split

/-! # Narrowing a schema set

Three passes that only take away: resources that nobody asked for, attributes that only the provider sets, and
attributes that the validator refused. -/

namespace ModuleScaffold

/-- The names of refused attributes by the address of the resource, as the validator spells it. -/
abbrev Refusals := Table (List String)

namespace SchemaSet

/-- An event of this module. -/
def event (level : Level) (message : String) : Event := ⟨level, .narrowing, message⟩

/-! ## Requested resources -/

/-- The schema set with the resources of the requested types only, and without providers that have none. -/
def keepRequested (types : List String) (s : SchemaSet) : SchemaSet :=
  { s with
    providers := (s.providers.map fun (key, resources) => (key, resources.filter (·.1 ∈ types))).filter
      fun (_, resources) => !resources.isEmpty }

/-- The events of keeping the requested resources, `count` of which were asked for. -/
def keepRequestedEvents (types : List String) (s : SchemaSet) : List Event :=
  let kept := s.keepRequested types
  event .info ("Filtering provider schemas for " ++ toString types.length ++ " requested resources")
  :: (s.providers.flatMap fun (key, resources) =>
    (resources.filter (·.1 ∈ types)).map fun (type, _) =>
      event .debug ("Included resource " ++ type ++ " from " ++ key))
  ++ [event .info ("Kept " ++ toString kept.resourceCount ++ " resources across "
      ++ toString kept.providers.length ++ " providers")]

end SchemaSet

/-! ## Attributes that only the provider sets -/

mutual

/-- The block without attributes that only the provider sets, at every depth. -/
def Block.prune : Block → Block
  | .mk attributes nested description =>
    .mk (attributes.filter fun (_, a) => !a.isSetByProvider) (pruneNested nested) description

/-- The nested blocks without attributes that only the provider sets. -/
def pruneNested : List (String × Nesting × Option Block) → List (String × Nesting × Option Block)
  | [] => []
  | (name, nesting, none) :: rest => (name, nesting, none) :: pruneNested rest
  | (name, nesting, some b) :: rest => (name, nesting, some b.prune) :: pruneNested rest

end

mutual

/-- The paths of the attributes that pruning the block at `path` takes away, those of a block before those of
the blocks nested in it. -/
def Block.prunedPaths (path : String) : Block → List String
  | .mk attributes nested _ =>
    (attributes.filter fun (_, a) => a.isSetByProvider).map (fun (name, _) => path ++ "." ++ name)
    ++ nestedPrunedPaths path nested

/-- The paths of the attributes that pruning the blocks nested in the block at `path` takes away. -/
def nestedPrunedPaths (path : String) : List (String × Nesting × Option Block) → List String
  | [] => []
  | (_, _, none) :: rest => nestedPrunedPaths path rest
  | (name, _, some b) :: rest => b.prunedPaths (path ++ "." ++ name) ++ nestedPrunedPaths path rest

end

namespace SchemaSet

/-- The schema set with another block in the place of each resource's. -/
def mapBlocks (f : String → Block → Block) (s : SchemaSet) : SchemaSet :=
  { s with
    providers := s.providers.map fun (key, resources) =>
      (key, resources.map fun (type, r) => (type, { r with block := f type r.block })) }

/-- The schema set without attributes that only the provider sets. -/
def prune (s : SchemaSet) : SchemaSet := s.mapBlocks fun _ b => b.prune

/-- The events of pruning. -/
def pruneEvents (s : SchemaSet) : List Event :=
  let paths := s.providers.flatMap fun (_, resources) =>
    resources.flatMap fun (type, r) => r.block.prunedPaths type
  paths.map (fun path => event .debug ("Removed computed-only attribute " ++ path))
  ++ [event .info ("Removed " ++ toString paths.length ++ " computed-only attributes")]

/-! ## Attributes that the validator refused -/

/-- Whether an address is that of a resource of this type: the type alone, or the type with a label behind a
point. -/
def addresses (address type : String) : Bool :=
  match Text.after? type.toList address.toList with
  | some [] => true
  | some (c :: _) => c == '.'
  | none => false

/-- The list without repetitions, each name at its first place. -/
def distinct (names : List String) : List String :=
  names.foldl (fun kept name => if name ∈ kept then kept else kept ++ [name]) []

/-- The names that were refused for resources of a type, in the order of their addresses. -/
def refusedFor (refusals : Refusals) (type : String) : List String :=
  distinct <| refusals.flatMap fun (address, names) => if addresses address type then names else []

/-- The schema set without the attributes that were refused; only those of the resources themselves go. -/
def dropRefused (refusals : Refusals) (s : SchemaSet) : SchemaSet :=
  s.mapBlocks fun type b =>
    b.withAttributes (b.attributes.filter fun (name, _) => !(refusedFor refusals type).contains name)

/-- The events of removing what was refused for one resource. -/
def resourceRemovalEvents (refused : List String) (key type : String) (block : Block) : List Event :=
  if refused.isEmpty then [event .debug ("No rejected attributes for " ++ type ++ " (" ++ key ++ ")")]
  else
    refused.map fun name =>
      if block.attributes.has name then event .info ("Removed rejected attribute " ++ name ++ " from " ++ type)
      else event .warn ("Attribute " ++ name ++ " not found in resource " ++ type ++ ", cannot remove")

/-- The events of removing what was refused. -/
def dropRefusedEvents (refusals : Refusals) (s : SchemaSet) : List Event :=
  event .info "Removing rejected attributes from the schema"
  :: s.providers.flatMap fun (key, resources) =>
    resources.flatMap fun (type, r) =>
      resourceRemovalEvents (refusedFor refusals type) key type r.block

end SchemaSet
end ModuleScaffold
