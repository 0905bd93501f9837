import ModuleScaffold.Request
import ModuleScaffold.Schema.Item
import ModuleScaffold.Log

/-! # Bodies of resources

The body of a resource in which every argument refers to the input of the module. A nested block becomes a
dynamic block that repeats over the input of its name. -/

namespace ModuleScaffold

/-- Why a nested block is left out. -/
inductive Skip where
  | missingBody
  | unsupported (mode : NestingMode)
  deriving DecidableEq, Repr

namespace Body

/-- Where a reference begins. -/
inductive Root where
  /-- The variables of the module. -/
  | inputs
  /-- The element that the resource repeats for. -/
  | element
  /-- The element that the innermost dynamic block of this label repeats for. -/
  | block (label : String)
  deriving DecidableEq, Repr

/-- The text of a root. -/
def Root.text : Root → String
  | inputs => "var"
  | element => "each.value"
  | block label => label ++ ".value"

/-- A part of the input. -/
structure Reference where
  root : Root
  name : String
  deriving DecidableEq, Repr

/-- The text of a reference. -/
def Reference.text (r : Reference) : String := r.root.text ++ "." ++ r.name

/-- A statement of a body, or the place of a nested block that is left out of it. -/
inductive Statement where
  | assign (name : String) (source : Reference)
  | dynamic (label : String) (source : Reference) (content : List Statement)
  | skipped (name : String) (root : Root) (reason : Skip)

/-- The statements for the items of a block, whose input begins at `root`. -/
def statements (root : Root) : List Item → List Statement
  | [] => []
  | .argument name _ :: rest => .assign name ⟨root, name⟩ :: statements root rest
  | .block name _ none :: rest => .skipped name root .missingBody :: statements root rest
  | .block name nesting (some (_, items)) :: rest =>
    (if nesting.mode.isSupported then .dynamic name ⟨root, name⟩ (statements (.block name) items)
      else .skipped name root (.unsupported nesting.mode)) :: statements root rest

/-! ## Text -/

/-- The lines of statements that stand `depth` levels deep. -/
def lines (depth : Nat) : List Statement → List String
  | [] => []
  | .assign name source :: rest =>
    (AttributeType.indent depth ++ name ++ " = " ++ source.text) :: lines depth rest
  | .dynamic label source content :: rest =>
    let pad := AttributeType.indent depth
    ["", pad ++ "dynamic \"" ++ label ++ "\" \x7b",
      pad ++ "  for_each = can(coalesce(" ++ source.text ++ ")) ? flatten([" ++ source.text ++ "]) : []",
      pad ++ "  content \x7b"]
    ++ lines (depth + 2) content
    ++ [pad ++ "  \x7d", pad ++ "\x7d", ""] ++ lines depth rest
  | .skipped _ _ _ :: rest => lines depth rest

/-- The expression that repeats a resource for every element of a variable. -/
def iteration (variableName : String) : String :=
  "\x7b for i in coalesce(var." ++ variableName ++ ", []) : i.name => i \x7d"

/-- Where the references of a resource begin. -/
def rootOf : Mode → Root
  | .single => .inputs
  | .multiple => .element

/-- The lines of a resource. -/
def resourceLines (type : String) (block : Block) (mode : Mode) (variableName : String) : List String :=
  ["resource \"" ++ type ++ "\" \"this\" \x7b"]
  ++ (match mode with
    | .single => []
    | .multiple => ["  for_each = " ++ iteration variableName])
  ++ lines 1 (statements (rootOf mode) block.items) ++ ["\x7d", ""]

/-! ## Events -/

/-- An event of this module. -/
def event (level : Level) (message : String) : Event := ⟨level, .bodies, message⟩

/-- The events of writing statements. -/
def events : List Statement → List Event
  | [] => []
  | .assign name source :: rest =>
    event .debug ("Added attribute: " ++ name ++ " = " ++ source.text) :: events rest
  | .dynamic label _ content :: rest =>
    events content ++ event .debug ("Added dynamic block for nested block " ++ label) :: events rest
  | .skipped name root .missingBody :: rest =>
    event .warn ("Skipping invalid nested block " ++ name ++ " under " ++ root.text) :: events rest
  | .skipped name _ (.unsupported mode) :: rest =>
    event .warn ("Unknown nesting mode " ++ mode.label ++ " for block " ++ name ++ ", skipping")
      :: events rest

/-- The events of writing a resource. -/
def resourceEvents (block : Block) (mode : Mode) (variableName : String) : List Event :=
  (match mode with
    | .single => []
    | .multiple => [event .debug ("Added for_each expression: " ++ iteration variableName)])
  ++ events (statements (rootOf mode) block.items)

end Body
end ModuleScaffold
