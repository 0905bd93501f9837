import ModuleScaffold.Text.Blank
import ModuleScaffold.Text.Line

/-! # Layout of a file

Runs of blank lines become one, and blank lines before a closing brace and at the end go away. -/

namespace ModuleScaffold.Layout

/-- Whether a line closes a brace. -/
def closes (line : List Char) : Bool := (Text.trimLeft line).head? == some '\x7d'

/-- Adds a line to those kept so far, which are given last line first and hold blank lines as empty ones. -/
def step (kept : List (List Char)) (line : List Char) : List (List Char) :=
  if Text.allBlank line then
    match kept with
    | [] :: _ => kept
    | _ => [] :: kept
  else if closes line then line :: kept.dropWhile (·.isEmpty)
  else line :: kept

/-- The lines that are kept of a text. -/
def keptLines (ls : List (List Char)) : List (List Char) :=
  ((ls.foldl step []).dropWhile (·.isEmpty)).reverse

/-- A text in the layout of a file. -/
def tidy (s : String) : String :=
  String.ofList (Text.unlines (keptLines (Text.lines s.toList)))

end ModuleScaffold.Layout
