import ModuleScaffold.Text.Blank
import ModuleScaffold.Text.Split
import ModuleScaffold.Text.Character

/-! # Patterns in diagnostics

The validator speaks in free text. Each pattern here finds a name in such text, at the first place where all
of the pattern stands. -/

namespace ModuleScaffold.Diagnostics.Pattern

/-- The name between quotes, on one line, that comes directly behind `lead`. -/
def quotedAfter? (lead s : List Char) : Option (List Char) :=
  Text.firstFrom (fun t =>
    (Text.after? lead t).bind fun rest => (Text.untilOnLine? ['"'] rest).map (·.1)) s

/-- What stands on one line between a quote, the first one that leads there, and the first `tail`. -/
def quotedBefore? (tail s : List Char) : Option (List Char) :=
  Text.firstFrom (fun t =>
    (Text.after? ['"'] t).bind fun rest => (Text.untilOnLine? tail rest).map (·.1)) s

/-- The word directly behind `lead`. -/
def wordAfter? (lead s : List Char) : Option (List Char) :=
  Text.firstFrom (fun t =>
    (Text.after? lead t).bind fun rest =>
      let word := rest.takeWhile Text.isWord
      if word.isEmpty then none else some word) s

/-- A text between quotes behind at least one blank, and what follows it. -/
def blankThenQuoted? (s : List Char) : Option (List Char × List Char) :=
  let rest := s.dropWhile Text.isBlank
  if rest.length = s.length then none
  else
    match rest with
    | '"' :: inner =>
      match Text.splitAt? '"' inner with
      | some ([], _) => none
      | some (name, rest) => some (name, rest)
      | none => none
    | _ => none

/-- The type and the label in the first header of a resource. -/
def header? (s : List Char) : Option (List Char × List Char) :=
  Text.firstFrom (fun t =>
    (Text.after? "resource".toList t).bind fun rest =>
      (blankThenQuoted? rest).bind fun (type, rest) =>
        (blankThenQuoted? rest).map fun (label, _) => (type, label)) s

end ModuleScaffold.Diagnostics.Pattern
