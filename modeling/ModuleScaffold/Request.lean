import ModuleScaffold.Provider

/-! # Requested resources

A resource is requested as `type` or `type:mode`. It belongs to the provider with the longest name that its
type begins with. -/

namespace ModuleScaffold

/-- Whether a resource is written once or as a collection. -/
inductive Mode where
  | single | multiple
  deriving DecidableEq, Repr

/-- The name of a mode. -/
def Mode.name : Mode → String
  | single => "single"
  | multiple => "multiple"

/-- A type of resource that is to be written. -/
structure Request where
  type : String
  mode : Mode
  provider : Provider
  deriving DecidableEq, Repr

namespace Request

/-- Why a resource argument is refused. -/
inductive Fault where
  | missingType
  | unknownMode (mode : String)
  | secondSingle
  | noProvider
  deriving DecidableEq, Repr

/-- The words for a refusal. -/
def Fault.describe : Fault → String
  | missingType => "missing resource type"
  | unknownMode mode => "unknown mode '" ++ mode ++ "', use 'single' or 'multiple'"
  | secondSingle => "only one resource may use 'single' mode, variable names would conflict"
  | noProvider => "no matching provider"

/-- The mode that a word names. -/
def modeOf? (word : String) : Option Mode :=
  if word = "single" then some .single
  else if word = "multiple" || word = "collection" then some .multiple
  else none

/-- The type and the mode of an argument, which is cut at its first colon. -/
def splitArgument (input : String) : String × String :=
  match Text.splitAt? ':' input.toList with
  | some (type, mode) => (String.ofList (Text.trim type), String.ofList (Text.trim mode))
  | none => (String.ofList (Text.trim input.toList), "multiple")

/-- The one of two providers with the longer name, and of equally long ones the second. -/
def longer (best : Option Provider) (p : Provider) : Option Provider :=
  match best with
  | some b => if Text.byteLength b.name.toList ≤ Text.byteLength p.name.toList then some p else some b
  | none => some p

/-- The provider that a type of resource belongs to. -/
def providerOf? (providers : Table Provider) (type : String) : Option Provider :=
  (providers.values.filter fun p => Text.beginsWith p.name.toList type.toList).foldl longer none

/-- Reads a resource argument; `taken` says whether one before it has single mode. -/
def parse (providers : Table Provider) (taken : Bool) (input : String) : Except Fault Request :=
  let (type, word) := splitArgument input
  if type = "" then .error .missingType
  else
    match modeOf? word with
    | none => .error (.unknownMode word)
    | some mode =>
      if mode = .single && taken then .error .secondSingle
      else
        match providerOf? providers type with
        | none => .error .noProvider
        | some provider => .ok ⟨type, mode, provider⟩

end Request
end ModuleScaffold
