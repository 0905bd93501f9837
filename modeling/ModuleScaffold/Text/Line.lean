/-! # Lines of a text

A line ends at a line feed, and a carriage return directly before it belongs to the ending. What follows
the last line feed is a line of its own unless it is empty. -/

namespace ModuleScaffold.Text

/-- The line whose characters were collected last first, without the carriage return of its ending. -/
def closeLine : List Char → List Char
  | '\r' :: before => before.reverse
  | before => before.reverse

/-- The lines of a text, the first of which has been collected up to here, last character first. -/
def linesFrom (before : List Char) : List Char → List (List Char)
  | [] => if before.isEmpty then [] else [before.reverse]
  | c :: rest => if c = '\n' then closeLine before :: linesFrom [] rest else linesFrom (c :: before) rest

/-- The lines of a text without their endings. -/
def lines (s : List Char) : List (List Char) := linesFrom [] s

/-- Every line followed by a line feed. -/
def unlines : List (List Char) → List Char
  | [] => []
  | l :: rest => l ++ '\n' :: unlines rest

/-- The text of lines, each followed by a line feed. -/
def ofLines (ls : List String) : String := String.join (ls.map (· ++ "\n"))

end ModuleScaffold.Text
