import ModuleScaffold.Provider
import ModuleScaffold.Text.Line

/-! # Required providers

The block that pins every provider to its source and its constraints. -/

namespace ModuleScaffold.RequiredProviders

/-- One entry of the block. -/
structure Entry where
  key : String
  source : String
  version : String
  deriving DecidableEq, Repr

/-- The name of a provider as a key: an underscore goes before a first character that no key begins with. -/
def keyOf (name : String) : String :=
  match name.toList with
  | [] => "_"
  | c :: rest => if Text.isIdentifierStart c then name else String.ofList ('_' :: c :: rest)

/-- The entries of the providers in the order of their sources. -/
def entries (providers : Table Provider) : List Entry :=
  providers.values.map fun p => ⟨keyOf p.name, p.source, p.version⟩

/-- The lines of an entry. -/
def Entry.lines (e : Entry) : List String := [
  "    " ++ e.key ++ " = \x7b",
  "      \"source\" = \"" ++ e.source ++ "\"",
  "      \"version\" = \"" ++ e.version ++ "\"",
  "    \x7d"]

/-- The file of the block. -/
def render (providers : Table Provider) : String :=
  match entries providers with
  | [] => Text.ofLines ["terraform \x7b", "  required_providers \x7b  \x7d", "\x7d"]
  | es =>
    Text.ofLines (["terraform \x7b", "  required_providers \x7b"] ++ es.flatMap Entry.lines ++ ["  \x7d", "\x7d"])

end ModuleScaffold.RequiredProviders
