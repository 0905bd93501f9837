import ModuleScaffold.Settings.Document
import ModuleScaffold.World

/-! # Settings

What a run takes from the settings file, where the command line says nothing else. -/

namespace ModuleScaffold

/-- The settings of a run. -/
structure Settings where
  directory : String
  binary : String
  logLevel : String
  comments : Bool
  registry : String
  deriving DecidableEq, Repr

namespace Settings

/-- The registry that provider addresses begin with unless another one is set. -/
def defaultRegistry : String := "registry.terraform.io"

/-- The settings without a settings file. -/
def default : Settings := ⟨"terraform", "terraform", "info", false, defaultRegistry⟩

/-- The settings with one entry of a settings file; none when there is no such setting or it is of another
kind. -/
def set? (s : Settings) (name : String) (value : Value) : Option Settings :=
  match value with
  | .text text =>
    if name = "directory" then some { s with directory := text }
    else if name = "binary" then some { s with binary := text }
    else if name = "log_level" then some { s with logLevel := text }
    else if name = "registry_host" then some { s with registry := text }
    else none
  | .flag b => if name = "desc_as_comment" then some { s with comments := b } else none

/-- The settings with the entries of a settings file, none of which may stand twice. -/
def withEntries? (s : Settings) (seen : List String) : List (String × Value) → Option Settings
  | [] => some s
  | (name, value) :: rest =>
    if name ∈ seen then none
    else
      match s.set? name value with
      | some s => s.withEntries? (name :: seen) rest
      | none => none

/-- Reads the text of a settings file. -/
def parse? (text : String) : Option Settings :=
  (Document.entries? text.toList).bind (default.withEntries? [])

/-- Reads the settings file at a path. -/
def ofFile (path : String) (w : World) : Except SettingsFault Settings :=
  match w.readText path with
  | .error fault => .error (.unreadable path fault)
  | .ok text =>
    match parse? text with
    | some s => .ok s
    | none => .error (.malformed path)

/-- The settings file that is read when none is named. -/
def defaultFile : String := "tfmodgen.toml"

/-- The path of the settings file of a run, if it has one: the one that is named, or the default one when it
is there. -/
def pathOf? (named : Option String) (w : World) : Option String :=
  match named with
  | some path => some path
  | none => if w.has defaultFile then some defaultFile else none

/-- The settings of a run. -/
def load (named : Option String) (w : World) : Except SettingsFault Settings :=
  match pathOf? named w with
  | some path => ofFile path w
  | none => .ok default

/-- The events of loading settings. -/
def loadEvents (named : Option String) (w : World) : List Event :=
  match pathOf? named w with
  | some path =>
    match ofFile path w with
    | .ok _ => [⟨.debug, .settings, "Loaded config from " ++ path⟩]
    | .error _ => []
  | none => []

end Settings
end ModuleScaffold
