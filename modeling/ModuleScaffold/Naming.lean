import ModuleScaffold.Naming.Plural

/-! # Names of variables -/

namespace ModuleScaffold.Naming

/-- The name of the variable that holds all resources of a type: the plural of the type without the prefix of
its provider. A type without a prefix keeps its name. -/
def variableName (resource : String) : String :=
  match Text.splitAt? '_' resource.toList with
  | some (_, c :: rest) => plural (String.ofList (c :: rest))
  | _ => resource

end ModuleScaffold.Naming
