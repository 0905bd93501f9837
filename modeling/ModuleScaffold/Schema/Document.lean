import ModuleScaffold.Schema.Block
import ModuleScaffold.Json.Read

/-! # Schema documents

The JSON document in which providers describe their resources. Absent members have the empty value of their
kind, and members that are not asked for are passed over. -/

namespace ModuleScaffold.Schema

/-- The records of a schema document. -/
inductive Record where
  | schemas | provider | resource | block | argument | nested

/-- The members of each record, in the order in which they stand when the record is written as a list. -/
def Record.members : Record → List (String × Json.Shape Record)
  | schemas => [("format_version", .text), ("provider_schemas", .table (.record provider))]
  | provider => [("resource_schemas", .table (.record resource))]
  | resource => [("version", .count), ("block", .record block)]
  | block =>
    [("attributes", .table (.record argument)), ("block_types", .table (.record nested)),
      ("description", .text)]
  | argument =>
    [("type", .optional .any), ("description", .text), ("required", .flag), ("optional", .flag),
      ("computed", .flag)]
  | nested =>
    [("nesting_mode", .word), ("min_items", .count), ("max_items", .count),
      ("block", .optional (.record block))]

/-- The names of the records in messages. -/
def Record.title : Record → String
  | schemas => "ProviderSchemas"
  | provider => "ProviderSchema"
  | resource => "ResourceSchema"
  | block => "Block"
  | argument => "Attribute"
  | nested => "NestedBlock"

/-- The family of schema documents. -/
def vocabulary : Json.Vocabulary Record := ⟨Record.title, Record.members⟩

end Schema

/-! ## Members of a record -/

namespace Json

/-- The value of a member of an object in which no member stands twice. -/
def member? (name : String) : Json → Option Json
  | object members => Table.find? name members
  | _ => none

/-- The text of a member, empty when it is absent. -/
def textAt (name : String) (j : Json) : String :=
  match j.member? name with
  | some (string s) => s
  | _ => ""

/-- The truth of a member, false when it is absent. -/
def flagAt (name : String) (j : Json) : Bool :=
  match j.member? name with
  | some (bool b) => b
  | _ => false

/-- The number of a member, zero when it is absent. -/
def countAt (name : String) (j : Json) : UInt64 :=
  match j.member? name with
  | some (number (.whole n)) => n
  | _ => 0

/-- The members of a member, none when it is absent. -/
def membersAt (name : String) (j : Json) : List (String × Json) :=
  match j.member? name with
  | some (object members) => members
  | _ => []

end Json

/-! ## From values to schemas -/

/-- The type of an attribute, unless it is absent or null. -/
def Attribute.typeOfJson? (j : Json) : Option AttributeType :=
  match j.member? "type" with
  | none => none
  | some .null => none
  | some value => some (AttributeType.ofJson value)

/-- The attribute that a value describes. -/
def Attribute.ofJson (j : Json) : Attribute :=
  { type := typeOfJson? j
    description := j.textAt "description"
    required := j.flagAt "required"
    optional := j.flagAt "optional"
    computed := j.flagAt "computed" }

/-- How often the nested block that a value describes may stand. -/
def Nesting.ofJson (j : Json) : Nesting :=
  { mode := NestingMode.ofWord (j.textAt "nesting_mode")
    minItems := j.countAt "min_items"
    maxItems := j.countAt "max_items" }

/-- The attributes that the members of a block describe. -/
def attributesOfJson (members : List (String × Json)) : List (String × Attribute) :=
  ((Json.object members).membersAt "attributes").map fun (name, value) => (name, Attribute.ofJson value)

mutual

/-- The block that a value describes. -/
def Block.ofJson : Json → Block
  | .object members =>
    .mk (Table.ofList (attributesOfJson members)) (Table.ofList (nestedAt members))
      ((Json.object members).textAt "description")
  | _ => Block.empty

/-- The nested blocks among the members of a block. -/
def nestedAt : List (String × Json) → List (String × Nesting × Option Block)
  | [] => []
  | (name, value) :: rest => if name = "block_types" then nestedOfJson value else nestedAt rest

/-- The nested blocks that a value describes. -/
def nestedOfJson : Json → List (String × Nesting × Option Block)
  | .object entries => nestedEntries entries
  | _ => []

/-- The nested blocks of a list of names and values. -/
def nestedEntries : List (String × Json) → List (String × Nesting × Option Block)
  | [] => []
  | (name, value) :: rest => (name, Nesting.ofJson value, bodyOfJson value) :: nestedEntries rest

/-- The body of the nested block that a value describes. -/
def bodyOfJson : Json → Option Block
  | .object members => bodyAt members
  | _ => none

/-- The body among the members of a nested block; null is no body. -/
def bodyAt : List (String × Json) → Option Block
  | [] => none
  | (name, value) :: rest =>
    if name = "block" then
      match value with
      | .null => none
      | other => some (Block.ofJson other)
    else bodyAt rest

end

/-- The schema of a resource that a value describes. -/
def ResourceSchema.ofJson (j : Json) : ResourceSchema :=
  { version := j.countAt "version"
    block := ((j.member? "block").map Block.ofJson).getD Block.empty }

namespace SchemaSet

/-- The schemas of the resources of a provider that a value describes. -/
def resourcesOfJson (j : Json) : Table ResourceSchema :=
  Table.ofList <| (j.membersAt "resource_schemas").map fun (name, value) => (name, ResourceSchema.ofJson value)

/-- The schemas that a value describes. -/
def ofJson (j : Json) : SchemaSet :=
  { formatVersion := j.textAt "format_version"
    providers := Table.ofList <|
      (j.membersAt "provider_schemas").map fun (name, value) => (name, resourcesOfJson value) }

/-- Reads a schema document. -/
def read (input : String) : Except Json.Problem SchemaSet :=
  (Json.read Schema.vocabulary (.record .schemas) input).map ofJson

end SchemaSet

/-- Reads the document of a single block. -/
def Block.read (input : String) : Except Json.Problem Block :=
  (Json.read Schema.vocabulary (.record .block) input).map ofJson

end ModuleScaffold
