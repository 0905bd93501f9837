import ModuleScaffold.Arguments
import ModuleScaffold.CommandLine
import ModuleScaffold.Log.Filter
import ModuleScaffold.Settings
import ModuleScaffold.Workspace

/-! # Commands

What the program does for an invocation, from the settings to the formatted module. -/

namespace ModuleScaffold.Command

open CommandLine (GenerateOptions Invocation Refusal)

/-- An event of this module. -/
def event (level : Level) (message : String) : Event := ⟨level, .program, message⟩

/-- What a run of `generate` works with, once options and settings are put together. -/
structure Job where
  providers : List String
  resources : List String
  workspace : Workspace
  comments : Bool
  registry : String
  schemaFile : Option String
  deriving DecidableEq, Repr

/-- The job of options and settings; the options win. -/
def Job.of (options : GenerateOptions) (settings : Settings) : Job :=
  { providers := options.providers
    resources := options.resources
    workspace := ⟨options.binary.getD settings.binary, options.directory.getD settings.directory⟩
    comments := options.comments || settings.comments
    registry := settings.registry
    schemaFile := options.schemaFile }

/-! ## Steps -/

/-- The schemas of the file that is named, or else those that the tool prints. -/
def schemas (job : Job) : Run SchemaSet :=
  match job.schemaFile with
  | none => job.workspace.providerSchemas
  | some path => do
    Run.emit [event .info ("Reading provider schemas from " ++ path)]
    match (← get).readText path with
    | .ok text => Workspace.readSchemas text
    | .error fault => throw (.noSchemaFile path fault)

/-- Keeps what is requested and can be configured. -/
def narrow (requests : List Request) (s : SchemaSet) : Run SchemaSet := do
  let types := requests.map (·.type)
  Run.emit (s.keepRequestedEvents types)
  Run.emit (s.keepRequested types).pruneEvents
  return (s.keepRequested types).prune

/-- The events of what the validator still refuses. -/
def remainingEvents (remaining : Refusals) : List Event :=
  remaining.flatMap fun (address, names) =>
    names.map fun name => event .warn ("Validation still rejects " ++ name ++ " on " ++ address)

/-- Writes a module and refines it. -/
def refine (validator : Validator) (p : Plan) (s : SchemaSet) : Run Refinement.Outcome := do
  let (_, outcome) ← Refinement.run validator p s
  Run.ofExcept outcome

/-- The events of pinning providers. -/
def pinEvents (providers : Table Provider) : List Event :=
  providers.values.map fun p => ⟨.debug, .pinning, "Pinned provider " ++ p.source ++ " to " ++ p.version⟩

/-- Does a job. -/
def generate (job : Job) : Run Unit := do
  let directory := job.workspace.directory
  let providers ← Arguments.readProviders job.providers
  let requests ← Arguments.readRequests providers job.resources
  Run.change (.noDirectory directory) (World.makeDirectories directory)
  job.workspace.probe
  Run.emit (pinEvents providers)
  let _ ← Publish.file directory versionsFile (RequiredProviders.render providers)
  job.workspace.init
  let s ← schemas job
  let s ← narrow requests s
  let outcome ← refine job.workspace.validator ⟨requests, job.registry, job.comments⟩ s
  Run.emit (remainingEvents outcome.remaining)
  job.workspace.format
  Run.emit [event .info ("Generated module in " ++ directory)]

/-! ## The program -/

/-- What the program leaves behind besides files. -/
structure Outcome where
  exitCode : Nat
  stdout : String
  stderr : String
  deriving DecidableEq, Repr

/-- The line with which a run of `generate` begins. -/
def banner : String := "tfmodgen v0.3.0"

/-- The end of a run that an error ended before it had a log. -/
def failed (e : Error) : Outcome := ⟨1, "", e.report⟩

/-- The end of a run that has a log. -/
def ended (filter : Log.Filter) (w : World) (result : Except Error Unit) : Outcome :=
  let shown := (w.log.filter filter.shows).map fun e => e.shown.line
  let begun := Text.ofLines (banner :: shown)
  match result with
  | .ok _ => ⟨0, "", begun⟩
  | .error e => ⟨1, "", begun ++ e.report⟩

/-- The level of a run: that of the options, or else that of the settings. -/
def levelOf (options : GenerateOptions) (settings : Settings) : Except Error Level :=
  let input := options.logLevel.getD settings.logLevel
  match Level.parse? input with
  | some level => .ok level
  | none => .error (.invalidLogLevel input)

/-- A completion script with the names of the commands, which stands in for the longer one that the command-line library
prints for the shell. -/
def completionScript (shell : String) : String :=
  if shell = "fish" then "complete -c tfmodgen -f -a 'generate completion help'\n"
  else if shell = "bash" then "complete -W 'generate completion help' tfmodgen\n"
  else if shell = "zsh" then "compdef '_values command generate completion help' tfmodgen\n"
  else "# generate completion help\n"

/-- How the program is used, in place of the help and the error texts that the command-line library prints. -/
def usage : String := "Usage: tfmodgen [--config <CONFIG>] <generate|completion|help>\n"

/-- The end of a run that the arguments do not lead to. -/
def refused : Refusal → Outcome
  | .helpWanted => ⟨0, usage, ""⟩
  | .versionWanted => ⟨0, "tfmodgen 0.3.0\n", ""⟩
  | _ => ⟨2, "", usage⟩

/-- The paths of the files that a run may read. -/
def filesRead (arguments : List String) : List String :=
  match CommandLine.parse arguments with
  | .error _ => []
  | .ok invocation =>
    invocation.config.getD Settings.defaultFile ::
      match invocation.command with
      | .completion _ => []
      | .generate options => options.schemaFile.toList

/-- Runs the program in a world, with the log filter that the environment names. -/
def main (arguments : List String) (filter : Option String) (w : World) : Outcome × World :=
  match CommandLine.parse arguments with
  | .error r => (refused r, w)
  | .ok invocation =>
    match Settings.load invocation.config w with
    | .error fault => (failed (.settings fault), w)
    | .ok settings =>
      match invocation.command with
      | .completion shell => (⟨0, completionScript shell, ""⟩, w)
      | .generate options =>
        match levelOf options settings with
        | .error e => (failed e, w)
        | .ok level =>
          let (result, w) := (generate (Job.of options settings)).run.run w
          (ended (.ofEnvironment filter level) w result, w)

end ModuleScaffold.Command
