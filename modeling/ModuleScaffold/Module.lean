import ModuleScaffold.Inputs
import ModuleScaffold.Layout
import ModuleScaffold.Naming
import ModuleScaffold.RequiredProviders
import ModuleScaffold.Hcl.Syntax

/-! # Modules

The two files of a module: its resources, and the variables that they refer to. Both are
written along the same list of requests. -/

namespace ModuleScaffold

/-- What a module is made from. -/
structure Plan where
  requests : List Request
  /-- The host of the registry that the schemas name their providers by. -/
  registry : String
  /-- Whether descriptions are written as comments. -/
  comments : Bool

/-- The files of a module. -/
structure ModuleFiles where
  main : String
  inputs : String
  deriving DecidableEq, Repr

namespace Plan

/-! ## Resources -/

/-- Why a requested resource is left out. -/
inductive Absence where
  | noProvider | noResource
  deriving DecidableEq, Repr

/-- The address of the provider of a request. -/
def addressOf (p : Plan) (r : Request) : String := r.provider.address p.registry

/-- The schema of a requested resource. -/
def schemaOf (p : Plan) (s : SchemaSet) (r : Request) : Except Absence ResourceSchema :=
  match s.providers.find? (p.addressOf r) with
  | none => .error .noProvider
  | some resources =>
    match resources.find? r.type with
    | none => .error .noResource
    | some schema => .ok schema

/-- The lines of the resource of a request. -/
def mainLines (p : Plan) (s : SchemaSet) (r : Request) : List String :=
  match p.schemaOf s r with
  | .ok schema => Body.resourceLines r.type schema.block r.mode (Naming.variableName r.type)
  | .error _ => []

/-- The lines of the variables of a request. -/
def variableLines (p : Plan) (s : SchemaSet) (r : Request) : List String :=
  match p.schemaOf s r with
  | .ok schema => Inputs.resourceLines p.comments schema.block r.mode (Naming.variableName r.type)
  | .error _ => []

/-! ## Files -/

/-- The module of a plan. -/
def generate (p : Plan) (s : SchemaSet) : ModuleFiles :=
  { main := Layout.tidy (Text.ofLines (p.requests.flatMap (p.mainLines s)))
    inputs := Layout.tidy (Text.ofLines (p.requests.flatMap (p.variableLines s))) }

/-! ## Events -/

/-- An event of this module. -/
def event (level : Level) (message : String) : Event := ⟨level, .modules, message⟩

/-- The events of writing a request. -/
def requestEvents (p : Plan) (s : SchemaSet) (r : Request) : List Event :=
  match p.schemaOf s r with
  | .error .noProvider =>
    [event .warn ("Provider " ++ p.addressOf r ++ " not found in schema, skipping " ++ r.type)]
  | .error .noResource =>
    [event .warn ("Resource " ++ r.type ++ " not found in provider " ++ p.addressOf r ++ ", skipping")]
  | .ok schema =>
    event .info ("Generating " ++ r.type ++ " (" ++ r.mode.name ++ " mode, schema version "
      ++ toString schema.version.toNat ++ ")")
    :: Body.resourceEvents schema.block r.mode (Naming.variableName r.type)
    ++ Inputs.resourceEvents p.comments schema.block r.mode (Naming.variableName r.type)

/-- The events of writing a module. -/
def generateEvents (p : Plan) (s : SchemaSet) : List Event := p.requests.flatMap (p.requestEvents s)

end Plan

/-- The name of the file of the resources. -/
def mainFile : String := "main.tf"

/-- The name of the file of the variables. -/
def variablesFile : String := "variables.tf"

/-- The name of the file of the required providers. -/
def versionsFile : String := "versions.tf"

/-- The event of checking the syntax of a file. -/
def syntaxEvent (name text : String) : Event :=
  if Hcl.Syntax.accepts text then ⟨.debug, .files, name ++ " parses as HCL"⟩
  else ⟨.warn, .files, "Generated " ++ name ++ " does not parse as HCL"⟩

end ModuleScaffold
