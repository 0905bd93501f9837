import ModuleScaffold.Publish
import ModuleScaffold.Diagnostics

/-! # Refinement

A module is written and validated. When the validator refuses attributes, they are taken out of the schemas
and the module is written once more; what is refused then is only reported. -/

namespace ModuleScaffold

/-- What validates the modules of a directory. -/
structure Validator where
  directory : String
  /-- What the validator prints. -/
  validate : Run String

/-- How a refinement ended. -/
structure Refinement.Outcome where
  /-- What was refused at first, and is gone from the schemas. -/
  refused : Refusals
  /-- What is refused still. -/
  remaining : Refusals

namespace Refinement

/-- An event of this module. -/
def event (level : Level) (message : String) : Event := ⟨level, .refinement, message⟩

/-- The event of a validation. -/
def validationEvent (v : Validation) : Event :=
  event .info ("Validation result: valid=" ++ (if v.valid then "true" else "false")
    ++ " errors=" ++ toString v.errorCount.toNat ++ " warnings=" ++ toString v.warningCount.toNat)

/-- Validates the directory: the refused attributes. -/
def validate (validator : Validator) : Run Refusals := do
  Run.emit [event .info ("Validating " ++ validator.directory)]
  let printed ← validator.validate
  Run.emit [event .debug ("Validation output: " ++ printed)]
  match Validation.read printed with
  | .error problem => throw (.unreadableDiagnostics problem)
  | .ok v =>
    Run.emit [validationEvent v]
    Run.emit (v.diagnostics.flatMap Diagnostic.events)
    return Refusals.ofDiagnostics v.diagnostics

/-- Writes the module and validates it: the refused attributes. -/
def attempt (validator : Validator) (p : Plan) (s : SchemaSet) : Run Refusals := do
  let _ ← Publish.write p s validator.directory
  validate validator

/-- Adds events to the log of a world. -/
def note (events : List Event) : StateM World Unit := modify (·.logged events)

/-- Writes, validates, and writes once more: the schemas as they are afterwards, also when the run fails, and the
outcome. -/
def run (validator : Validator) (p : Plan) (s : SchemaSet) :
    StateM World (SchemaSet × Except Error Refinement.Outcome) := do
  match ← (attempt validator p s).run with
  | .error e => return (s, .error e)
  | .ok [] =>
    note [event .info "No rejected attributes, configuration is complete"]
    return (s, .ok ⟨[], []⟩)
  | .ok refused =>
    let narrowed := s.dropRefused refused
    note (event .info ("Validator rejected attributes on " ++ toString refused.length
      ++ " resources, regenerating") :: s.dropRefusedEvents refused)
    match ← (attempt validator p narrowed).run with
    | .error e => return (narrowed, .error e)
    | .ok remaining => return (narrowed, .ok ⟨refused, remaining⟩)

end Refinement
end ModuleScaffold
