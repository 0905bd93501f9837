import ModuleScaffold.World

/-! # Arguments of a request

The providers and resources of a command line, read one after the other. The first argument that is refused
ends the reading. -/

namespace ModuleScaffold.Arguments

/-- An event of this module. -/
def event (level : Level) (message : String) : Event := ⟨level, .arguments, message⟩

/-! ## Providers -/

/-- The providers of a list of arguments, by their sources, together with those known before. -/
def providersFrom (known : Table Provider) : List String → Except Error (Table Provider)
  | [] => .ok known
  | input :: rest =>
    match Provider.add known input with
    | .ok known => providersFrom known rest
    | .error f => .error (.invalidProvider input f)

/-- The providers of a list of arguments, by their sources. -/
def providers (inputs : List String) : Except Error (Table Provider) := providersFrom [] inputs

/-- The events of reading provider arguments, up to the first that is refused. -/
def providerEvents (known : Table Provider) : List String → List Event
  | [] => []
  | input :: rest =>
    match Provider.add known input, Provider.parse input with
    | .ok known, .ok p =>
      event .debug ("Parsed provider: " ++ p.source ++ " (" ++ p.version ++ ")") :: providerEvents known rest
    | _, _ => []

/-! ## Resources -/

/-- The resources of a list of arguments; `taken` says whether one before them has single mode. -/
def requestsFrom (providers : Table Provider) (taken : Bool) : List String → Except Error (List Request)
  | [] => .ok []
  | input :: rest =>
    match Request.parse providers taken input with
    | .error f => .error (.invalidResource input f)
    | .ok r =>
      match requestsFrom providers (taken || r.mode == .single) rest with
      | .ok rs => .ok (r :: rs)
      | .error e => .error e

/-- The resources of a list of arguments. -/
def requests (providers : Table Provider) (inputs : List String) : Except Error (List Request) :=
  requestsFrom providers false inputs

/-- The events of reading resource arguments, up to the first that is refused. -/
def requestEvents (providers : Table Provider) (taken : Bool) : List String → List Event
  | [] => []
  | input :: rest =>
    match Request.parse providers taken input with
    | .error _ => []
    | .ok r =>
      event .debug ("Parsed resource: " ++ r.type ++ " mode=" ++ r.mode.name ++ " provider=" ++ r.provider.source)
        :: requestEvents providers (taken || r.mode == .single) rest

/-! ## As part of a run -/

/-- Reads the provider arguments of a run. -/
def readProviders (inputs : List String) : Run (Table Provider) := do
  Run.emit (providerEvents [] inputs)
  Run.ofExcept (providers inputs)

/-- Reads the resource arguments of a run. -/
def readRequests (providers : Table Provider) (inputs : List String) : Run (List Request) := do
  Run.emit (requestEvents providers false inputs)
  Run.ofExcept (requests providers inputs)

end ModuleScaffold.Arguments
