import ModuleScaffold.Text.Blank
import ModuleScaffold.Text.Character

/-! # The log

Events, their levels, and the part of the program that each comes from. -/

namespace ModuleScaffold

/-- How much an event matters. -/
inductive Level where
  | error | warn | info | debug | trace
  deriving DecidableEq, Repr

namespace Level

/-- The position of a level, the most severe first. -/
def rank : Level → Nat
  | error => 0
  | warn => 1
  | info => 2
  | debug => 3
  | trace => 4

/-- Whether `a` is at least as severe as `b`. -/
def within (a b : Level) : Bool := a.rank ≤ b.rank

/-- The name of a level as the log shows it. -/
def name : Level → String
  | error => "ERROR"
  | warn => "WARN"
  | info => "INFO"
  | debug => "DEBUG"
  | trace => "TRACE"

/-- The level of a name in lower case. -/
def ofName? (s : String) : Option Level :=
  if s = "trace" then some trace
  else if s = "debug" then some debug
  else if s = "info" then some info
  else if s = "warn" then some warn
  else if s = "error" then some error
  else none

/-- The level that a user names: blanks around it and its case do not matter, and `warning` is `warn`. -/
def parse? (input : String) : Option Level :=
  let word := Text.lower (Text.trimmed input)
  if word = "warning" then some warn else ofName? word

end Level

/-- The part of the program that an event comes from. -/
inductive Area where
  | program | files | settings | inputs | diagnostics | modules | narrowing | arguments | refinement
  | bodies | tool | pinning
  deriving DecidableEq, Repr

/-- The target under which a filter knows an area. -/
def Area.target : Area → String
  | program => "tfmodgen"
  | files => "tfmodgen::artifact"
  | settings => "tfmodgen::config"
  | inputs => "tfmodgen::declarations"
  | diagnostics => "tfmodgen::diagnostics"
  | modules => "tfmodgen::generate"
  | narrowing => "tfmodgen::normalize"
  | arguments => "tfmodgen::parsing"
  | refinement => "tfmodgen::repair"
  | bodies => "tfmodgen::skeleton"
  | tool => "tfmodgen::toolchain"
  | pinning => "tfmodgen::versions"

/-- One entry of the log. -/
structure Event where
  level : Level
  area : Area
  message : String
  deriving DecidableEq, Repr

/-- A character of a message as a terminal is sent it: what a terminal would obey is written as an escape. -/
def shownChar (c : Char) : List Char :=
  if c ∈ ['\x07', '\x08', '\x0c', '\x1b', '\x7f'] then
    '\\' :: 'x' :: [Nat.digitChar (c.toNat / 16), Nat.digitChar (c.toNat % 16)]
  else if '\u0080' ≤ c && c ≤ '\u009f' then
    ['\\', 'u', '\x7b', Nat.digitChar (c.toNat / 16), Nat.digitChar (c.toNat % 16), '\x7d']
  else [c]

/-- The event with its message as a terminal is sent it. -/
def Event.shown (e : Event) : Event :=
  { e with message := String.ofList (e.message.toList.flatMap shownChar) }

/-- The line of an event. -/
def Event.line (e : Event) : String := e.level.name ++ " " ++ e.message

end ModuleScaffold
