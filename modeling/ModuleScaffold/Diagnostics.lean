import ModuleScaffold.Diagnostics.Pattern
import ModuleScaffold.Schema.Narrowing

/-! # Diagnostics

What the validator reports, and which attributes of which resources it refuses. -/

namespace ModuleScaffold

/-- The part of the configuration that a diagnostic points at. -/
structure Snippet where
  context : Option String
  code : String
  deriving DecidableEq, Repr

/-- One report of the validator. -/
structure Diagnostic where
  severity : String
  address : String
  summary : String
  detail : String
  snippet : Option Snippet
  deriving DecidableEq, Repr

/-- All that one run of the validator reports. -/
structure Validation where
  valid : Bool
  errorCount : UInt64
  warningCount : UInt64
  diagnostics : List Diagnostic
  deriving DecidableEq, Repr

/-! ## The document -/

namespace Diagnostics

/-- The records of a validation document. -/
inductive Record where
  | validation | diagnostic | snippet

/-- The members of each record. -/
def Record.members : Record → List (String × Json.Shape Record)
  | validation =>
    [("valid", .flag), ("error_count", .count), ("warning_count", .count),
      ("diagnostics", .list (.record diagnostic))]
  | diagnostic =>
    [("severity", .text), ("address", .text), ("summary", .text), ("detail", .text),
      ("snippet", .optional (.record snippet))]
  | snippet => [("context", .optional .text), ("code", .text)]

/-- The names of the records in messages. -/
def Record.title : Record → String
  | validation => "ValidateOutput"
  | diagnostic => "Diagnostic"
  | snippet => "Snippet"

/-- The family of validation documents. -/
def vocabulary : Json.Vocabulary Record := ⟨Record.title, Record.members⟩

end Diagnostics

/-- The snippet that a value describes. -/
def Snippet.ofJson (j : Json) : Snippet :=
  { context := match j.member? "context" with
      | some (.string s) => some s
      | _ => none
    code := j.textAt "code" }

/-- The diagnostic that a value describes. -/
def Diagnostic.ofJson (j : Json) : Diagnostic :=
  { severity := j.textAt "severity"
    address := j.textAt "address"
    summary := j.textAt "summary"
    detail := j.textAt "detail"
    snippet := match j.member? "snippet" with
      | some (.object members) => some (Snippet.ofJson (.object members))
      | _ => none }

namespace Validation

/-- The report that a value describes. -/
def ofJson (j : Json) : Validation :=
  { valid := j.flagAt "valid"
    errorCount := j.countAt "error_count"
    warningCount := j.countAt "warning_count"
    diagnostics := match j.member? "diagnostics" with
      | some (.array elements) => elements.map Diagnostic.ofJson
      | _ => [] }

/-- Reads what the validator printed. -/
def read (input : String) : Except Json.Problem Validation :=
  (Json.read Diagnostics.vocabulary (.record .validation) input).map ofJson

end Validation

/-! ## Refused attributes -/

namespace Diagnostic

/-- The address of the resource that a diagnostic speaks of: the one it gives, or the type and the label in
the context of its snippet. -/
def owner? (d : Diagnostic) : Option String :=
  if d.address ≠ "" then some d.address
  else
    match d.snippet with
    | none => none
    | some snippet =>
      match snippet.context with
      | none => none
      | some context =>
        (Diagnostics.Pattern.header? context.toList).map fun (type, label) =>
          String.ofList type ++ "." ++ String.ofList label

/-- The left side of the assignment that a snippet shows. -/
def assigned? (snippet : Snippet) : Option (List Char) :=
  match Text.splitAt? '=' (Text.trim snippet.code.toList) with
  | none => none
  | some (left, _) => if (Text.trim left).isEmpty then none else some (Text.trim left)

/-- The name that a diagnostic gives in the words of its detail or summary. -/
def namedAttribute? (d : Diagnostic) : Option (List Char) :=
  match Diagnostics.Pattern.quotedAfter? "Can't configure a value for \"".toList d.detail.toList with
  | some name => some name
  | none =>
    match Diagnostics.Pattern.quotedBefore? "\": this field cannot be set".toList d.summary.toList with
    | some name => some name
    | none => Diagnostics.Pattern.wordAfter? "invalid or unknown key: ".toList d.summary.toList

/-- The attribute that a diagnostic refuses: the one it names, or else the one its snippet assigns. -/
def refusedName? (d : Diagnostic) : Option String :=
  match d.namedAttribute? with
  | some name => some (String.ofList name)
  | none => (d.snippet.bind assigned?).map String.ofList

/-- Whether a diagnostic is an error. -/
def isError (d : Diagnostic) : Bool := d.severity == "error"

/-- The address and the attribute of an error that has both. -/
def refusal? (d : Diagnostic) : Option (String × String) :=
  if d.isError then
    match d.owner?, d.refusedName? with
    | some address, some name => some (address, name)
    | _, _ => none
  else none

/-- An event of this module. -/
def event (level : Level) (message : String) : Event := ⟨level, .diagnostics, message⟩

/-- The events of looking for the attribute that a diagnostic refuses. -/
def events (d : Diagnostic) : List Event :=
  if d.isError then
    match d.owner? with
    | none => [event .warn ("Could not determine resource address for diagnostic: " ++ d.summary)]
    | some address =>
      match d.refusedName? with
      | some name => [event .debug ("Validator rejected " ++ name ++ " on " ++ address)]
      | none => [event .debug ("No attribute found in diagnostic for " ++ address ++ ": " ++ d.summary)]
  else []

end Diagnostic

namespace Refusals

/-- Adds a name to those of an address. -/
def add (r : Refusals) (address name : String) : Refusals :=
  Table.update address [] (· ++ [name]) r

/-- The refused attributes of a list of diagnostics, in its order. -/
def ofDiagnostics (ds : List Diagnostic) : Refusals :=
  (ds.filterMap Diagnostic.refusal?).foldl (fun r (address, name) => add r address name) []

end Refusals
end ModuleScaffold
