import ModuleScaffold.Table
import ModuleScaffold.Text.Blank
import ModuleScaffold.Text.Split
import ModuleScaffold.Text.Character

/-! # Providers

A provider is named on the command line as `owner/name` or `owner/name:constraints`. The case of its names
does not matter. -/

namespace ModuleScaffold

/-- A provider and the versions of it that are accepted. -/
structure Provider where
  owner : String
  name : String
  version : String
  deriving DecidableEq, Repr

namespace Provider

/-- The source of a provider, which tells it from all others. -/
def source (p : Provider) : String := p.owner ++ "/" ++ p.name

/-- The address of a provider in the schemas of a registry. -/
def address (p : Provider) (registry : String) : String := registry ++ "/" ++ p.owner ++ "/" ++ p.name

/-- Why a provider argument is refused. -/
inductive Fault where
  | malformed
  | badConstraints (text : String)
  | duplicate (source : String)
  deriving DecidableEq, Repr

/-- The words for a refusal. -/
def Fault.describe : Fault → String
  | malformed => "expected 'namespace/name[:version]'"
  | badConstraints text => "invalid version constraint '" ++ text ++ "'"
  | duplicate source => "duplicate provider " ++ source

/-! ## Names -/

/-- Whether a character may stand in the name of a provider or of its owner. -/
def isNameChar (c : Char) : Bool := Text.isLetter c || Text.isDigit c || c == '_' || c == '-'

/-- Whether a text is the name of a provider or of its owner. -/
def isName (s : List Char) : Bool := !s.isEmpty && s.all isNameChar

/-! ## Constraints -/

/-- Whether a character may stand in constraints. -/
def isConstraintChar (c : Char) : Bool :=
  Text.isLetter c || Text.isDigit c || ['.', '<', '>', '=', '~', '_', ',', ' ', '-'].contains c

/-- The text behind a comparison operator, if it begins with one. -/
def afterOperator : List Char → List Char
  | '>' :: '=' :: rest => rest
  | '<' :: '=' :: rest => rest
  | '!' :: '=' :: rest => rest
  | '~' :: '>' :: rest => rest
  | '>' :: rest => rest
  | '<' :: rest => rest
  | '=' :: rest => rest
  | other => other

/-- Whether a text is a version of up to three numbers between points. -/
def isVersion (s : List Char) : Bool :=
  let groups := Text.splitAll '.' s
  groups.length ≤ 3 && groups.all fun g => !g.isEmpty && g.all Text.isDigit

/-- Whether a text is a version behind an optional operator, with blanks around both. -/
def isConstraint (s : List Char) : Bool :=
  isVersion (Text.trimLeft (afterOperator (Text.trim s)))

/-- Whether a text is a list of constraints between commas. -/
def isConstraintList (s : List Char) : Bool := (Text.splitAll ',' s).all isConstraint

/-! ## Arguments -/

/-- The constraints of a provider that names none. -/
def anyVersion : String := ">= 0"

/-- The constraints in an argument behind its first colon, if there is one. -/
def parseConstraints : Option (List Char) → Except Fault String
  | none => .ok anyVersion
  | some s =>
    let text := Text.trim s
    if isConstraintList text then .ok (String.ofList text) else .error (.badConstraints (String.ofList text))

/-- The parts of an argument before and behind its first colon. -/
def splitArgument (s : List Char) : List Char × Option (List Char) :=
  match Text.splitAt? ':' s with
  | some (source, constraints) => (source, some constraints)
  | none => (s, none)

/-- Whether what stands behind the colon of an argument, if it has one, has the characters of constraints. -/
def constraintsFit : Option (List Char) → Bool
  | none => true
  | some s => !s.isEmpty && s.all isConstraintChar

/-- Reads a provider argument. -/
def parse (input : String) : Except Fault Provider :=
  let (source, constraints) := splitArgument input.toList
  match Text.splitAt? '/' source with
  | none => .error .malformed
  | some (owner, name) =>
    if isName owner && isName name && constraintsFit constraints then
      match parseConstraints constraints with
      | .ok version =>
        .ok ⟨Text.lower (String.ofList owner), Text.lower (String.ofList name), version⟩
      | .error f => .error f
    else .error .malformed

/-- Adds the provider of an argument to those of the arguments before it. -/
def add (known : Table Provider) (input : String) : Except Fault (Table Provider) :=
  match parse input with
  | .error f => .error f
  | .ok p =>
    if known.has p.source then .error (.duplicate p.source) else .ok (known.insert p.source p)

end Provider
end ModuleScaffold
