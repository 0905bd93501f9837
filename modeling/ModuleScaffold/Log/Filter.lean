import ModuleScaffold.Log
import ModuleScaffold.Text.Split

/-! # Log filters

A filter is a list of directives between commas. A directive is a level, a target, or a target with a level
after `=`; a target may name a span in brackets. The directive with the longest target that an event's target
begins with decides whether the event is shown. -/

namespace ModuleScaffold.Log

/-- The most that is shown: nothing, or events down to a level. -/
inductive Limit where
  | off
  | upTo (level : Level)
  deriving DecidableEq, Repr

/-- Whether a limit lets an event of a level through. -/
def Limit.shows : Limit → Level → Bool
  | off, _ => false
  | upTo limit, level => level.within limit

/-- One part of a filter. -/
structure Directive where
  target : Option (List Char)
  limit : Limit
  /-- A directive on spans says nothing about events outside of them. -/
  onSpans : Bool
  deriving DecidableEq, Repr

/-- A limit by number: 0 is off and 5 shows everything. A plus sign and leading zeros are accepted. -/
def numericLimit? (s : List Char) : Option Limit :=
  let digits := if s.head? = some '+' then s.drop 1 else s
  if digits.isEmpty || !digits.all Text.isDigit then none
  else
    match digits.dropWhile (· == '0') with
    | [] => some .off
    | ['1'] => some (.upTo .error)
    | ['2'] => some (.upTo .warn)
    | ['3'] => some (.upTo .info)
    | ['4'] => some (.upTo .debug)
    | ['5'] => some (.upTo .trace)
    | _ => none

/-- A limit by number or by name in any case. -/
def Limit.parse? (s : List Char) : Option Limit :=
  match numericLimit? s with
  | some limit => some limit
  | none =>
    let word := String.ofList (s.map Text.lowerChar)
    if word = "off" then some .off else (Level.ofName? word).map .upTo

/-- What has been read of a directive. -/
inductive Progress where
  | start
  | word (low : Nat)
  | span
  | field
  | fields
  | target
  | level (low : Nat)

/-- A directive under way: how far it is read, its target, and whether it names a span. -/
structure Reading where
  progress : Progress
  target : Option (List Char)
  onSpans : Bool

/-- The characters of `s` from one place up to another. -/
def slice (s : List Char) (low high : Nat) : List Char := (s.take high).drop low

/-- Reads the character `c` at place `i` of the directive `full`. -/
def Reading.step (full : List Char) (r : Reading) (i : Nat) (c : Char) : Option Reading :=
  match r.progress with
  | .start =>
    if c = '[' then some { r with progress := .span }
    else if c = '-' || c = ':' || c = '_' || Text.isWord c then some { r with progress := .word i }
    else none
  | .word low =>
    if c = '=' then some { r with progress := .level (i + 1), target := some (slice full low i) }
    else if c = '[' then some { r with progress := .span, target := some (slice full low i) }
    else some r
  | .span =>
    if c = ']' then some { r with progress := .target, onSpans := true }
    else if c = '\x7b' then some { r with progress := .field, onSpans := true }
    else some r
  | .field => if c = '\x7d' then some { r with progress := .fields } else some r
  | .fields => if c = ']' then some { r with progress := .target } else none
  | .target => if c = '=' then some { r with progress := .level (i + 1) } else none
  | .level _ => some r

/-- Reads the characters of the directive `full` from place `i` on. -/
def Reading.run (full : List Char) (r : Reading) (i : Nat) : List Char → Option Reading
  | [] => some r
  | c :: rest =>
    match r.step full i c with
    | some r' => r'.run full (i + 1) rest
    | none => none

/-- What a directive says once all of it is read. A target alone shows everything. -/
def Reading.finish (full : List Char) (r : Reading) : Option Directive :=
  match r.progress with
  | .word low =>
    match Limit.parse? (full.drop low) with
    | some limit => some ⟨none, limit, r.onSpans⟩
    | none => some ⟨some (full.drop low), .upTo .trace, r.onSpans⟩
  | .level low =>
    match full.drop low with
    | [] => some ⟨r.target, .upTo .trace, r.onSpans⟩
    | word => (Limit.parse? word).map fun limit => ⟨r.target, limit, r.onSpans⟩
  | .target => some ⟨r.target, .upTo .trace, r.onSpans⟩
  | _ => none

/-- One directive; blanks around it are not read but keep their places. -/
def Directive.parse? (s : List Char) : Option Directive :=
  ((⟨.start, none, false⟩ : Reading).run s 0 (Text.trim s)).bind (·.finish s)

/-- The length of a directive's target, with none below every target. -/
def Directive.weight (d : Directive) : Nat :=
  match d.target with
  | none => 0
  | some target => target.length + 1

/-- Whether a directive speaks of a target. -/
def Directive.covers (d : Directive) (target : List Char) : Bool :=
  !d.onSpans &&
    match d.target with
    | none => true
    | some word => Text.beginsWith word target

/-- The weightier of two directives, and of equal ones the later. -/
def Directive.heavier (best : Option Directive) (d : Directive) : Option Directive :=
  match best with
  | some b => if b.weight ≤ d.weight then some d else some b
  | none => some d

/-- Which events are shown. -/
structure Filter where
  directives : List Directive

namespace Filter

/-- The filter with one limit for everything. -/
def only (limit : Limit) : Filter := ⟨[⟨none, limit, false⟩]⟩

/-- Reads a filter; one without directives shows errors. -/
def parse? (s : String) : Option Filter :=
  match ((Text.splitAll ',' s.toList).filter (!·.isEmpty)).mapM Directive.parse? with
  | some [] => some (only (.upTo .error))
  | some directives => some ⟨directives⟩
  | none => none

/-- Whether an event is shown. -/
def shows (f : Filter) (e : Event) : Bool :=
  let covering := f.directives.filter (·.covers e.area.target.toList)
  match covering.foldl Directive.heavier none with
  | some d => d.limit.shows e.level
  | none => false

/-- The filter of a run: the one the environment names, warnings when that cannot be read, and otherwise
warnings with the chosen level for this program's own events. -/
def ofEnvironment (setting : Option String) (level : Level) : Filter :=
  match setting with
  | some text => (parse? text).getD (only (.upTo .warn))
  | none => ⟨[⟨none, .upTo .warn, false⟩, ⟨some Area.program.target.toList, .upTo level, false⟩]⟩

end Filter
end ModuleScaffold.Log
