import ModuleScaffold.Request
import ModuleScaffold.Json.Fault
import ModuleScaffold.World.FileTree

/-! # Errors

Everything that can end a run, with the words in which it is reported. -/

namespace ModuleScaffold

/-- Why a settings file cannot be used. -/
inductive SettingsFault where
  | unreadable (path : String) (fault : FileFault)
  | malformed (path : String)
  deriving DecidableEq, Repr

/-- The words for a settings file that cannot be used. -/
def SettingsFault.describe : SettingsFault → String
  | unreadable path fault => "failed to read config file '" ++ path ++ "': " ++ fault.describe
  | malformed path => "invalid config file '" ++ path ++ "'"

/-- Why a run ends. -/
inductive Error where
  | invalidProvider (input : String) (fault : Provider.Fault)
  | invalidResource (input : String) (fault : Request.Fault)
  | invalidLogLevel (input : String)
  | settings (fault : SettingsFault)
  | unreadableSchema (problem : Json.Problem)
  | unreadableDiagnostics (problem : Json.Problem)
  | unwritable (path : String) (fault : FileFault)
  | noDirectory (path : String) (fault : FileFault)
  | noSchemaFile (path : String) (fault : FileFault)
  | binaryUnusable (binary reason : String)
  | toolFailed (command reason : String)
  deriving DecidableEq, Repr

namespace Error

/-- The words for an error. -/
def message : Error → String
  | invalidProvider input fault => "invalid provider '" ++ input ++ "': " ++ fault.describe
  | invalidResource input fault => "invalid resource '" ++ input ++ "': " ++ fault.describe
  | invalidLogLevel input =>
    "invalid log level: '" ++ input ++ "', expected one of trace, debug, info, warn, error"
  | settings fault => "configuration error: " ++ fault.describe
  | unreadableSchema problem =>
    "failed to parse provider schema at '" ++ Json.Step.describe problem.path ++ "': " ++ problem.message
  | unreadableDiagnostics problem =>
    "failed to parse validation diagnostics at '" ++ Json.Step.describe problem.path ++ "': "
      ++ problem.message
  | unwritable path fault => "failed to write " ++ path ++ ": " ++ fault.describe
  | noDirectory path fault => "failed to create directory " ++ path ++ ": " ++ fault.describe
  | noSchemaFile path _ => "failed to read schema file " ++ path
  | binaryUnusable binary reason =>
    "terraform binary not found or not runnable: " ++ binary ++ ": " ++ reason
  | toolFailed command reason => "`" ++ command ++ "` failed: " ++ reason

/-- What brought an error about, where that is told apart from the error itself. -/
def cause? : Error → Option String
  | unwritable _ fault => some fault.describe
  | noDirectory _ fault => some fault.describe
  | noSchemaFile _ fault => some fault.describe
  | _ => none

/-- The report of an error at the end of a run. -/
def report (e : Error) : String :=
  match e.cause? with
  | none => "Error: " ++ e.message ++ "\n"
  | some cause => "Error: " ++ e.message ++ "\n\nCaused by:\n    " ++ cause ++ "\n"

end Error
end ModuleScaffold
