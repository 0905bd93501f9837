import ModuleScaffold.Error
import ModuleScaffold.Log
import ModuleScaffold.Text.Utf8

/-! # The world of a run

A run reads and writes files, starts the external tool, and keeps a log. The world is a value: what the tool
answers is any function of the calls made so far. -/

namespace ModuleScaffold

/-- What a call of the tool leaves behind. -/
structure Reply where
  exitCode : Nat
  stdout : List UInt8
  stderr : List UInt8
  deriving DecidableEq, Repr

/-- Whether a call ended well. -/
def Reply.succeeded (r : Reply) : Bool := r.exitCode == 0

/-- What a call reports when it fails. -/
def Reply.complaint (r : Reply) : String := Text.trimmed (Text.Utf8.lossy r.stderr)

/-- A call of the tool: where it ran, with which arguments, and the files as it found them. -/
structure Call where
  directory : FileTree.Location
  arguments : List String
  files : FileTree

/-- The external tool. -/
structure Tool where
  /-- The names under which it can be started. -/
  names : List String
  /-- Its answer to a call, given the calls before, oldest first. -/
  reply : List Call → Call → Reply

/-- Everything outside a run, and what the run has done to it. -/
structure World where
  files : FileTree
  here : FileTree.Location
  tool : Tool
  /-- The calls made so far, oldest first. -/
  calls : List Call
  /-- The events so far, oldest first. -/
  log : List Event

/-- A part of a run: it changes the world, and it may end the run. -/
abbrev Run := ExceptT Error (StateM World)

namespace World

/-- The bytes of the file at a path. -/
def readBytes (path : String) (w : World) : Except FileFault (List UInt8) :=
  if path = "" then .error .notFound
  else
    match w.files.contentAt (Path.locate w.here path) with
    | .ok content => if Path.endsInSlash path then .error .notDirectory else .ok content
    | .error f => .error f

/-- The text of the file at a path. -/
def readText (path : String) (w : World) : Except FileFault String :=
  match w.readBytes path with
  | .ok content =>
    match Text.Utf8.text? content with
    | some text => .ok text
    | none => .error .notText
  | .error f => .error f

/-- Whether something stands at a path. -/
def has (path : String) (w : World) : Bool := w.files.has (Path.locate w.here path)

/-- The world with a text in the file at a path. -/
def writeText (path text : String) (w : World) : Except FileFault World :=
  match w.files.withContent (Path.locate w.here path) (Text.Utf8.encode text) with
  | .ok files => .ok { w with files }
  | .error f => .error f

/-- The world with a directory at a path, and on the way to it. -/
def makeDirectories (path : String) (w : World) : Except FileFault World :=
  if path = "" then .ok w
  else
    match w.files.makeDirectories (Path.locate w.here path) with
    | .ok files => .ok { w with files }
    | .error f => .error f

/-- The place in which a call for the directory at a path runs; without a path it is the current one. -/
def workplace (path : Option String) (w : World) : Except FileFault FileTree.Location :=
  match path with
  | none => .ok w.here
  | some path =>
    if path = "" then .error .notFound
    else
      let place := Path.locate w.here path
      match w.files.find place with
      | .ok (.directory _) => .ok place
      | .ok (.file _) => .error .notDirectory
      | .error f => .error f

/-- Why a binary cannot be started, unless it is the tool. A path to a file is not followed, as no file of
this world may be run. -/
def startFault? (binary : String) (w : World) : Option FileFault :=
  if binary ∈ w.tool.names then none
  else if binary.toList.contains '/' then
    match w.files.find (Path.locate w.here binary) with
    | .ok _ => some .notAllowed
    | .error f => some f
  else some .notFound

/-- Starts a binary in a directory: its reply, and the world in which the call has been made. -/
def start (binary : String) (directory : Option String) (arguments : List String) (w : World) :
    Except FileFault (Reply × World) :=
  match w.workplace directory with
  | .error f => .error f
  | .ok place =>
    match w.startFault? binary with
    | some f => .error f
    | none =>
      let call : Call := ⟨place, arguments, w.files⟩
      .ok (w.tool.reply w.calls call, { w with calls := w.calls ++ [call] })

/-- The world with further events in its log. -/
def logged (events : List Event) (w : World) : World := { w with log := w.log ++ events }

end World

namespace Run

/-- Adds events to the log. -/
def emit (events : List Event) : Run Unit := modify (·.logged events)

/-- Goes on with a result, or ends the run. -/
def ofExcept : Except Error α → Run α
  | .ok a => pure a
  | .error e => throw e

/-- Changes the world, or ends the run with the error for the fault. -/
def change (error : FileFault → Error) (f : World → Except FileFault World) : Run Unit := do
  match f (← get) with
  | .ok w => set w
  | .error fault => throw (error fault)

/-- Starts a binary, or ends the run with the error for the fault. -/
def start (error : FileFault → Error) (binary : String) (directory : Option String)
    (arguments : List String) : Run Reply := do
  match (← get).start binary directory arguments with
  | .ok (reply, w) => set w; return reply
  | .error fault => throw (error fault)

end Run
end ModuleScaffold
