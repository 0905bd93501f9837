import ModuleScaffold.AttributeType

/-! # Blocks of a provider schema

What a provider says about its resources: their attributes and the blocks nested in them. -/

namespace ModuleScaffold

/-- An argument of a block. -/
structure Attribute where
  type : Option AttributeType
  description : String
  required : Bool
  optional : Bool
  computed : Bool

/-- Whether only the provider sets an attribute, so that a configuration cannot. -/
def Attribute.isSetByProvider (a : Attribute) : Bool := a.computed && !a.required && !a.optional

/-- How the elements of a nested block are held together. -/
inductive NestingMode where
  | single | list | set | map | group | unknown
  deriving DecidableEq, Repr

namespace NestingMode

/-- The mode that a word of a schema names. -/
def ofWord (word : String) : NestingMode :=
  if word = "single" then single
  else if word = "list" then list
  else if word = "set" then set
  else if word = "map" then map
  else if word = "group" then group
  else unknown

/-- The name of a mode in messages. -/
def label : NestingMode → String
  | single => "Single"
  | list => "List"
  | set => "Set"
  | map => "Map"
  | group => "Group"
  | unknown => "Unknown"

/-- Whether a block of this mode can be written. -/
def isSupported : NestingMode → Bool
  | single | list | set => true
  | map | group | unknown => false

end NestingMode

/-- How often a nested block may stand. -/
structure Nesting where
  mode : NestingMode
  minItems : UInt64
  maxItems : UInt64
  deriving DecidableEq, Repr

namespace Nesting

/-- Whether there is room for one element only. -/
def holdsOne (n : Nesting) : Bool := n.mode == .single || n.maxItems == 1

/-- Whether the block may be left out. -/
def isOptional (n : Nesting) : Bool := n.minItems == 0

end Nesting

/-- The arguments of a resource or of a nested block, each table in the order of names. A nested block
without a body is malformed. -/
inductive Block where
  | mk (attributes : List (String × Attribute)) (nested : List (String × Nesting × Option Block))
    (description : String)

namespace Block

/-- The attributes of a block. -/
def attributes : Block → Table Attribute
  | mk attributes _ _ => attributes

/-- The blocks nested in a block. -/
def nested : Block → Table (Nesting × Option Block)
  | mk _ nested _ => nested

/-- What the provider says about a block. -/
def description : Block → String
  | mk _ _ description => description

/-- The block of which nothing is known. -/
def empty : Block := mk [] [] ""

/-- A block with other attributes. -/
def withAttributes (attributes : Table Attribute) : Block → Block
  | mk _ nested description => mk attributes nested description

end Block

/-- What a provider says about one type of resource. -/
structure ResourceSchema where
  version : UInt64
  block : Block

/-- The resources of all providers, by the address of the provider and the type of the resource. -/
structure SchemaSet where
  formatVersion : String
  providers : Table (Table ResourceSchema)

namespace SchemaSet

/-- The schema of a resource of a provider. -/
def resource? (s : SchemaSet) (provider resource : String) : Option ResourceSchema :=
  (s.providers.find? provider).bind (·.find? resource)

/-- The number of resources of all providers. -/
def resourceCount (s : SchemaSet) : Nat := s.providers.foldl (fun n (_, resources) => n + resources.length) 0

end SchemaSet
end ModuleScaffold
