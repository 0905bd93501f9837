import ModuleScaffold.Command

/-! # The program

The outer layer: it gathers the files that a run may read into a world, runs the program there, and carries
what the run leaves behind back to the system. No external tool is started from here, so the world of the
program has none. -/

namespace ModuleScaffold.Program

/-- The world with a file of the system, if it can be read. -/
def gather (w : World) (path : String) : IO World := do
  let place := Path.locate w.here path
  try
    let content ← IO.FS.readBinFile (Path.ofLocation place)
    match w.files.makeDirectories place.dropLast with
    | .error _ => return w
    | .ok files => return { w with files := (files.withContent place content.toList).toOption.getD files }
  catch _ => return w

/-- The world of a run that starts in a directory and may read these files. -/
def worldOf (here : FileTree.Location) (paths : List String) : IO World := do
  let files := ((FileTree.directory []).makeDirectories here).toOption.getD (.directory [])
  let start : World := ⟨files, here, ⟨[], fun _ _ => ⟨0, [], []⟩⟩, [], []⟩
  paths.foldlM gather start

/-- Carries a directory or a file to the system. -/
def publish (entry : FileTree.Location × Option (List UInt8)) : IO Unit :=
  match entry with
  | (place, none) => IO.FS.createDirAll (Path.ofLocation place)
  | (place, some content) => IO.FS.writeBinFile (Path.ofLocation place) ⟨content.toArray⟩

end ModuleScaffold.Program

open ModuleScaffold

/-- Runs the program. -/
def main (arguments : List String) : IO UInt32 := do
  let here ← IO.currentDir
  let w ← Program.worldOf (Path.locate [] here.toString) (Command.filesRead arguments)
  let (outcome, after) := Command.main arguments (← IO.getEnv "RUST_LOG") w
  let given := w.files.listing []
  ((after.files.listing []).filter (!given.contains ·)).forM Program.publish
  IO.print outcome.stdout
  IO.eprint outcome.stderr
  return outcome.exitCode.toUInt32
