import ModuleScaffold.Refinement
import ModuleScaffold.RequiredProviders

/-! # The external tool

A binary that works on the directory of a module: it fetches what providers need, prints their schemas,
validates the module and formats it. -/

namespace ModuleScaffold

/-- A binary and the directory that it works on. -/
structure Workspace where
  binary : String
  directory : String
  deriving DecidableEq, Repr

namespace Workspace

/-- An event of this module. -/
def event (level : Level) (message : String) : Event := ⟨level, .tool, message⟩

/-- The first line of what a version call prints, or the name of the binary when it prints nothing. -/
def versionLine (t : Workspace) (r : Reply) : String :=
  match Text.lines (Text.Utf8.lossy r.stdout).toList with
  | [] => t.binary
  | first :: _ => String.ofList first

/-- Makes sure that the binary can be started. -/
def probe (t : Workspace) : Run Unit := do
  let reply ← Run.start (fun f => .binaryUnusable t.binary f.describe) t.binary none ["version"]
  if reply.succeeded then Run.emit [event .info ("Using " ++ t.versionLine reply)]
  else throw (.binaryUnusable t.binary reply.complaint)

/-- The text of a call. -/
def commandLine (t : Workspace) (arguments : List String) : String :=
  t.binary ++ " " ++ String.intercalate " " arguments

/-- Starts the binary in the directory. -/
def call (t : Workspace) (arguments : List String) : Run Reply := do
  Run.emit [event .debug ("Running " ++ t.commandLine arguments)]
  Run.start (fun f => .toolFailed (t.commandLine arguments) f.describe) t.binary (some t.directory) arguments

/-- Ends the run unless a call succeeded. -/
def check (t : Workspace) (subcommand : String) (r : Reply) : Run Unit :=
  if r.succeeded then pure () else throw (.toolFailed (t.binary ++ " " ++ subcommand) r.complaint)

/-- Prepares the directory. -/
def init (t : Workspace) : Run Unit := do
  Run.emit [event .info ("Initializing " ++ t.directory)]
  let reply ← t.call ["init", "-upgrade", "-input=false"]
  t.check "init" reply

/-- Reads a schema document, or ends the run. -/
def readSchemas (text : String) : Run SchemaSet :=
  match SchemaSet.read text with
  | .ok s => pure s
  | .error problem => throw (.unreadableSchema problem)

/-- Fetches the schemas of the providers of the directory. -/
def providerSchemas (t : Workspace) : Run SchemaSet := do
  Run.emit [event .info "Fetching provider schemas"]
  let reply ← t.call ["providers", "schema", "-json"]
  t.check "providers schema -json" reply
  let s ← readSchemas (Text.Utf8.lossy reply.stdout)
  Run.emit [event .debug ("Schema format " ++ s.formatVersion ++ " with " ++ toString s.providers.length
    ++ " providers")]
  return s

/-- Validates the directory: what the binary prints. Its exit code does not matter, as an invalid module is
reported with one; printing nothing does. -/
def validate (t : Workspace) : Run String := do
  let reply ← t.call ["validate", "-json"]
  let printed := Text.trimmed (Text.Utf8.lossy reply.stdout)
  if printed = "" then throw (.toolFailed (t.binary ++ " validate -json") reply.complaint)
  else return printed

/-- Formats the files of the directory. -/
def format (t : Workspace) : Run Unit := do
  Run.emit [event .info ("Formatting " ++ t.directory)]
  let reply ← t.call ["fmt"]
  t.check "fmt" reply

/-- The binary as a validator. -/
def validator (t : Workspace) : Validator := ⟨t.directory, t.validate⟩

end Workspace
end ModuleScaffold
