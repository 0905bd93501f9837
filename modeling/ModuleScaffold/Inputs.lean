import ModuleScaffold.Body
import ModuleScaffold.Hcl.Quoted

/-! # Inputs

The variables that the body of a resource refers to. A collection of resources has one variable, whose
type repeats the whole block; a single resource has a variable for each of its items. -/

namespace ModuleScaffold.Inputs

/-! ## Descriptions -/

/-- A text with a blank in the place of every line ending. -/
def onOneLine : List Char → List Char
  | [] => []
  | '\r' :: '\n' :: rest => ' ' :: onOneLine rest
  | c :: rest => (if c = '\n' || c = '\r' then ' ' else c) :: onOneLine rest

/-- A text with a backslash before every quote. -/
def escapeQuotes (s : List Char) : List Char := s.flatMap fun c => if c = '"' then ['\\', '"'] else [c]

/-- A description as a comment. -/
def commentOf (description : String) : String :=
  String.ofList (onOneLine (escapeQuotes description.toList))

/-- The comment for a description, if comments are wanted and there is something to say. -/
def commentFor (wanted : Bool) (description : String) : Option String :=
  if wanted && description ≠ "" then some (commentOf description) else none

/-! ## Declared types -/

/-- How the object of a nested block is held in its field or variable. -/
inductive Holder where
  | object | list | set
  deriving DecidableEq, Repr

/-- What opens the type of a held object. -/
def Holder.opening : Holder → String
  | object => "object(\x7b"
  | list => "list(object(\x7b"
  | set => "set(object(\x7b"

/-- What closes it. -/
def Holder.closing : Holder → String
  | object => "\x7d)"
  | list => "\x7d))"
  | set => "\x7d))"

/-- The holder of a field for a block of this mode. -/
def Holder.ofMode? : NestingMode → Option Holder
  | .single => some object
  | .list => some list
  | .set => some set
  | _ => none

/-- A field of an object type, or the place of a nested block that is left out of it. -/
inductive Field where
  | value (name : String) (comment : Option String) (type : Option AttributeType) (required : Bool)
  | object (name : String) (comment : Option String) (holder : Holder) (required : Bool)
    (fields : List Field)
  | skipped (name : String) (reason : Skip)

/-- The fields for the items of a block. -/
def fields (comments : Bool) : List Item → List Field
  | [] => []
  | .argument name a :: rest =>
    .value name (commentFor comments a.description) a.type a.required :: fields comments rest
  | .block name _ none :: rest => .skipped name .missingBody :: fields comments rest
  | .block name nesting (some (description, items)) :: rest =>
    (match Holder.ofMode? nesting.mode with
      | some holder =>
        .object name (commentFor comments description) holder (!nesting.isOptional) (fields comments items)
      | none => .skipped name (.unsupported nesting.mode)) :: fields comments rest

/-- A variable of a module, or the place of a nested block that has none. -/
inductive Variable where
  /-- The variable of an argument. -/
  | value (name : String) (comment : Option String) (description : Option String) (type : Option AttributeType)
    (nullable : Bool)
  /-- The variable of a nested block. -/
  | object (name : String) (comment : Option String) (holder : Holder) (nullable : Bool)
    (fields : List Field)
  /-- The variable of a collection of resources. -/
  | collection (name : String) (fields : List Field)
  | skipped (name : String) (reason : Skip)

/-- The variable of one item of a single resource. -/
def variableOf (comments : Bool) : Item → Variable
  | .argument name a =>
    .value name (commentFor comments a.description)
      (if a.description = "" then none else some a.description) a.type a.optional
  | .block name _ none => .skipped name .missingBody
  | .block name nesting (some (description, items)) =>
    if nesting.mode.isSupported then
      .object name (commentFor comments description) (if nesting.holdsOne then .object else .list)
        nesting.isOptional (fields comments items)
    else .skipped name (.unsupported nesting.mode)

/-- The variables of a resource. -/
def variablesOf (comments : Bool) (block : Block) (mode : Mode) (variableName : String) : List Variable :=
  match mode with
  | .multiple => [.collection variableName (fields comments block.items)]
  | .single => block.items.map (variableOf comments)

/-! ## Text -/

/-- The line of a comment, if there is one. -/
def commentLines (pad : String) : Option String → List String
  | none => []
  | some comment => [pad ++ "// " ++ comment]

/-- The lines of fields that stand `depth` levels deep. -/
def fieldLines (depth : Nat) : List Field → List String
  | [] => []
  | .value name comment type required :: rest =>
    let pad := AttributeType.indent depth
    let text := AttributeType.renderOptional depth type
    commentLines pad comment
    ++ [pad ++ name ++ " = " ++ (if required then text else "optional(" ++ text ++ ")")]
    ++ fieldLines depth rest
  | .object name comment holder required inner :: rest =>
    let pad := AttributeType.indent depth
    [""] ++ commentLines pad comment
    ++ [pad ++ name ++ " = " ++ (if required then "" else "optional(") ++ holder.opening]
    ++ fieldLines (depth + 1) inner
    ++ [pad ++ holder.closing ++ (if required then "" else ")"), ""]
    ++ fieldLines depth rest
  | .skipped _ _ :: rest => fieldLines depth rest

/-- The line that lets a variable be left out. -/
def defaultLines (nullable : Bool) : List String := if nullable then ["  default = null"] else []

/-- The line of a description, if there is one. -/
def descriptionLines : Option String → List String
  | none => []
  | some description =>
    ["  description = " ++ String.ofList (Hcl.Quoted.encode (onOneLine description.toList))]

/-- The line that begins a variable. -/
def header (name : String) : String := "variable \"" ++ name ++ "\" \x7b"

/-- The lines of a variable. -/
def Variable.lines : Variable → List String
  | value name comment description type nullable =>
    commentLines "" comment ++ [header name] ++ descriptionLines description
    ++ ["  type = " ++ AttributeType.renderOptional 1 type] ++ defaultLines nullable ++ ["\x7d", ""]
  | object name comment holder nullable inner =>
    commentLines "" comment ++ [header name, "  type = " ++ holder.opening]
    ++ fieldLines 2 inner ++ ["  " ++ holder.closing] ++ defaultLines nullable ++ ["\x7d", ""]
  | collection name inner =>
    [header name, "  type = " ++ Holder.list.opening]
    ++ fieldLines 2 inner ++ ["  " ++ Holder.list.closing] ++ defaultLines true ++ ["\x7d", ""]
  | skipped _ _ => []

/-- The lines of the variables of a resource. -/
def resourceLines (comments : Bool) (block : Block) (mode : Mode) (variableName : String) : List String :=
  (variablesOf comments block mode variableName).flatMap Variable.lines

/-! ## Events -/

/-- An event of this module. -/
def event (level : Level) (message : String) : Event := ⟨level, .inputs, message⟩

/-- The event of leaving out a nested block. -/
def skipEvent (name : String) : Skip → Event
  | .missingBody => event .warn ("Skipping invalid nested block " ++ name)
  | .unsupported mode =>
    event .warn ("Unknown nesting mode " ++ mode.label ++ " for block " ++ name ++ ", skipping")

/-- The events of writing fields that stand `depth` levels deep. -/
def fieldEvents (depth : Nat) : List Field → List Event
  | [] => []
  | .value name _ type _ :: rest =>
    event .debug ("Added field " ++ name ++ " = " ++ AttributeType.renderOptional depth type)
      :: fieldEvents depth rest
  | .object name _ _ _ inner :: rest =>
    fieldEvents (depth + 1) inner
    ++ event .debug ("Added nested object field " ++ name) :: fieldEvents depth rest
  | .skipped name reason :: rest => skipEvent name reason :: fieldEvents depth rest

/-- The events of writing a variable. -/
def Variable.events : Variable → List Event
  | value name _ _ _ _ => [event .debug ("Added variable " ++ name)]
  | object name _ _ _ inner =>
    fieldEvents 2 inner ++ [event .debug ("Added variable " ++ name ++ " for nested block")]
  | collection _ inner => fieldEvents 2 inner
  | skipped name reason => [skipEvent name reason]

/-- The events of writing the variables of a resource. -/
def resourceEvents (comments : Bool) (block : Block) (mode : Mode) (variableName : String) : List Event :=
  (variablesOf comments block mode variableName).flatMap Variable.events

end ModuleScaffold.Inputs
