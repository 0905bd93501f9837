import ModuleScaffold.Module
import ModuleScaffold.World

/-! # Writing a module into a directory -/

namespace ModuleScaffold.Publish

/-- Writes a file of a directory; its path is the result. -/
def file (directory name text : String) : Run String := do
  let path := Path.join directory name
  Run.emit [⟨.info, .files, "Writing " ++ path⟩]
  Run.change (.unwritable path) (World.writeText path text)
  return path

/-- Writes the module of a plan into a directory, unless nothing was requested; the paths of the files are
the result. The syntax of the files is checked, but only the log tells. -/
def write (p : Plan) (s : SchemaSet) (directory : String) : Run (List String) := do
  if p.requests.isEmpty then
    Run.emit [⟨.warn, .modules, "No resources requested, nothing to generate"⟩]
    return []
  else
    Run.emit (p.generateEvents s)
    Run.emit [syntaxEvent mainFile (p.generate s).main, syntaxEvent variablesFile (p.generate s).inputs]
    let main ← file directory mainFile (p.generate s).main
    let inputs ← file directory variablesFile (p.generate s).inputs
    return [main, inputs]

end ModuleScaffold.Publish
