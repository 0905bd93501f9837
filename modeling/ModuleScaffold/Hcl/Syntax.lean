import ModuleScaffold.Text.Split
import ModuleScaffold.Text.Character

/-! # The syntax of a configuration

A recogniser for configuration files: bodies of attributes and blocks, and the expressions in them. Every
function takes the text that is left and returns what is left behind the part it names, or `none` when that
part does not stand there. -/

namespace ModuleScaffold.Hcl.Syntax

/-! ## Gaps -/

/-- Whether a character is a blank within a line. -/
def isGap (c : Char) : Bool := c == ' ' || c == '\t'

/-- Whether a character is a blank within a line or ends one. -/
def isBreak (c : Char) : Bool := isGap c || c == '\r' || c == '\n'

/-- Goes behind the end of a comment between tokens. -/
def commentEnd? : List Char → Option (List Char)
  | [] => none
  | '*' :: '/' :: rest => some rest
  | _ :: rest => commentEnd? rest

/-- Goes to the end of a line. A carriage return may stand only before the line feed. -/
def lineEnd? : List Char → Option (List Char)
  | [] => some []
  | '\n' :: rest => some ('\n' :: rest)
  | '\r' :: '\n' :: rest => some ('\r' :: '\n' :: rest)
  | c :: rest => if c = '\r' then none else lineEnd? rest

/-- Goes behind a comment that ends with its line. -/
def lineComment? : List Char → Option (List Char)
  | '#' :: rest => lineEnd? rest
  | '/' :: '/' :: rest => lineEnd? rest
  | _ => none

/-- Goes behind a line ending. -/
def newline? : List Char → Option (List Char)
  | '\n' :: rest => some rest
  | '\r' :: '\n' :: rest => some rest
  | _ => none

/-- Drops blanks and comments within a line, as many comments as the second text has characters. -/
def gapIn (s : List Char) : List Char → List Char
  | [] => s.dropWhile isGap
  | _ :: fuel =>
    match s.dropWhile isGap with
    | '/' :: '*' :: rest =>
      match commentEnd? rest with
      | some rest => gapIn rest fuel
      | none => '/' :: '*' :: rest
    | other => other

/-- Drops blanks and comments within a line. -/
def gap (s : List Char) : List Char := gapIn s s

/-- Drops blanks, line endings and comments of both kinds, as many comments as the second text has
characters. -/
def breaksIn (s : List Char) : List Char → List Char
  | [] => s.dropWhile isBreak
  | _ :: fuel =>
    match s.dropWhile isBreak with
    | '/' :: '*' :: rest =>
      match commentEnd? rest with
      | some rest => breaksIn rest fuel
      | none => '/' :: '*' :: rest
    | other =>
      match lineComment? other with
      | some rest => breaksIn rest fuel
      | none => other

/-- Drops blanks, line endings and comments of both kinds. -/
def breaks (s : List Char) : List Char := breaksIn s s

/-- Drops what may stand between two tokens, where line endings count as blanks or not. -/
def between (multiline : Bool) (s : List Char) : List Char := if multiline then breaks s else gap s

/-! ## Words, numbers and strings -/

/-- Goes behind an identifier. -/
def identifier? : List Char → Option (List Char)
  | [] => none
  | c :: rest => if Text.isIdentifierStart c then some (rest.dropWhile Text.isIdentifierPart) else none

/-- The identifier at the front of a text that begins with one. -/
def identifierText : List Char → List Char
  | [] => []
  | c :: rest => c :: rest.takeWhile Text.isIdentifierPart

/-- Goes behind a keyword, which no further character of an identifier may follow. -/
def keyword? (word s : List Char) : Option (List Char) :=
  match Text.after? word s with
  | some [] => some []
  | some (c :: rest) => if Text.isIdentifierPart c then none else some (c :: rest)
  | none => none

/-- The number that digits stand for. -/
def digitsValue (digits : List Char) : Nat :=
  digits.foldl (fun n c => n * 10 + (c.toNat - '0'.toNat)) 0

/-- The first whole number that a machine word cannot hold. -/
def wordEnd : Nat := 0x10000000000000000

/-- Whether `digits * 10 ^ exponent` is less than every number that machine numbers cannot hold. -/
def isFinite (digits : List Char) (exponent : Int) : Bool :=
  let significant := digits.dropWhile (· == '0')
  let magnitude : Int := significant.length + exponent
  if significant.isEmpty || magnitude < 309 then true
  else if 309 < magnitude then false
  else
    digitsValue significant * Nat.pow 10 exponent.toNat
      < (Nat.pow 2 1024 - Nat.pow 2 970) * Nat.pow 10 (-exponent).toNat

/-- Goes behind the exponent of a number with these digits, of which `places` stand behind the point. -/
def exponent? (digits : List Char) (places : Nat) (s : List Char) : Option (List Char) :=
  let (down, s) := match s with
    | '+' :: rest => (false, rest)
    | '-' :: rest => (true, rest)
    | other => (false, other)
  let size := s.takeWhile Text.isDigit
  if size.isEmpty then none
  else
    let e : Int := if down then -(digitsValue size : Int) else digitsValue size
    if isFinite digits (e - places) then some (s.dropWhile Text.isDigit) else none

/-- Goes behind a number. Whole numbers fit 64 bits, others are finite. -/
def number? (s : List Char) : Option (List Char) :=
  let whole := s.takeWhile Text.isDigit
  match s.dropWhile Text.isDigit with
  | 'e' :: rest => exponent? whole 0 rest
  | 'E' :: rest => exponent? whole 0 rest
  | '.' :: c :: rest =>
    if Text.isDigit c then
      let places := (c :: rest).takeWhile Text.isDigit
      match (c :: rest).dropWhile Text.isDigit with
      | 'e' :: rest => exponent? (whole ++ places) places.length rest
      | 'E' :: rest => exponent? (whole ++ places) places.length rest
      | other => if isFinite (whole ++ places) (-places.length) then some other else none
    else if digitsValue whole < wordEnd then some ('.' :: c :: rest) else none
  | other => if digitsValue whole < wordEnd then some other else none

/-- Reads `count` hexadecimal digits into `value`. -/
def hexDigits? (count value : Nat) (s : List Char) : Option (Nat × List Char) :=
  match count, s with
  | 0, s => some (value, s)
  | _ + 1, [] => none
  | count + 1, c :: rest =>
    match Text.hexValue? c with
    | some d => hexDigits? count (value * 16 + d) rest
    | none => none

/-- Goes behind an escape whose backslash has been consumed. -/
def escape? : List Char → Option (List Char)
  | [] => none
  | c :: rest =>
    if c = 'u' || c = 'U' then
      match hexDigits? (if c = 'u' then 4 else 8) 0 rest with
      | some (n, rest) => if n < 0xD800 || (0xDFFF < n && n < 0x110000) then some rest else none
      | none => none
    else if c ∈ ['n', 'r', 't', '\\', '"', '/', 'b', 'f'] then some rest
    else none

/-- Goes behind a string without templates whose opening quote has been consumed, within as many steps as the
second text has characters. A marker that begins a template must be escaped. -/
def plainStringIn? (s : List Char) : List Char → Option (List Char)
  | [] => none
  | _ :: fuel =>
    match s with
    | [] => none
    | '"' :: rest => some rest
    | '$' :: '$' :: '\x7b' :: rest => plainStringIn? rest fuel
    | '%' :: '%' :: '\x7b' :: rest => plainStringIn? rest fuel
    | '$' :: '\x7b' :: _ => none
    | '%' :: '\x7b' :: _ => none
    | '\\' :: rest =>
      match escape? rest with
      | some rest => plainStringIn? rest fuel
      | none => none
    | _ :: rest => plainStringIn? rest fuel

/-- Goes behind a string without templates whose opening quote has been consumed. -/
def plainString? (s : List Char) : Option (List Char) := plainStringIn? s s

/-- Goes behind the place of an element that a point names: digits without a leading zero, in range. -/
def legacyIndex? : List Char → Option (List Char)
  | '0' :: rest => some rest
  | s =>
    let digits := s.takeWhile Text.isDigit
    if !digits.isEmpty && digitsValue digits < wordEnd then some (s.dropWhile Text.isDigit) else none

/-- Goes behind an operator between two operands. -/
def operator? : List Char → Option (List Char)
  | '=' :: '=' :: rest => some rest
  | '!' :: '=' :: rest => some rest
  | '<' :: '=' :: rest => some rest
  | '>' :: '=' :: rest => some rest
  | '&' :: '&' :: rest => some rest
  | '|' :: '|' :: rest => some rest
  | '/' :: '/' :: _ => none
  | '/' :: '*' :: _ => none
  | c :: rest => if c ∈ ['<', '>', '+', '-', '*', '/', '%'] then some rest else none
  | [] => none

/-- Goes behind an equals sign that stands alone. -/
def equals? : List Char → Option (List Char)
  | '=' :: '=' :: _ => none
  | '=' :: rest => some rest
  | _ => none

/-- Goes behind the names that a `for` introduces, up to its `in`. -/
def forNames? (s : List Char) : Option (List Char) :=
  match identifier? (breaks s) with
  | none => none
  | some rest =>
    match breaks rest with
    | ',' :: rest =>
      match identifier? (breaks rest) with
      | some rest => keyword? ['i', 'n'] (breaks rest)
      | none => none
    | other => keyword? ['i', 'n'] other

/-- The part of `s` before `rest`, which it ends with, without blanks at its end. -/
def consumed (s rest : List Char) : List Char :=
  ((s.take (s.length - rest.length)).reverse.dropWhile isGap).reverse

/-- The lines of a heredoc up to the one that holds its delimiter alone, and what follows that. -/
def heredocBody? (delimiter before : List Char) (s : List Char) : Nat → Option (List Char × List Char)
  | 0 => none
  | steps + 1 =>
    if s.isEmpty then none
    else
      let line := s.takeWhile (· != '\n')
      let rest := s.dropWhile (· != '\n')
      let bare := if line.getLast? = some '\r' then line.dropLast else line
      if bare.dropWhile isGap = delimiter then some (before, rest)
      else
        match rest with
        | [] => none
        | _ :: rest => heredocBody? delimiter (before ++ line ++ ['\n']) rest steps

/-- What a template directive that has been opened still waits for. -/
inductive Open where
  | ifBranch | elseBranch | loop
  deriving DecidableEq

/-- Drops the mark that removes blanks around a marker. -/
def trimMark : List Char → List Char
  | '~' :: rest => rest
  | other => other

/-- Goes behind the brace that closes a marker. -/
def markerEnd? (s : List Char) : Option (List Char) :=
  match trimMark (breaks s) with
  | '\x7d' :: rest => some rest
  | _ => none

/-! ## Expressions -/

mutual

/-- Goes behind an expression, in which at most `level` further brackets may be nested. -/
def expression (multiline : Bool) (level : Nat) (s : List Char) : Nat → Option (List Char)
  | 0 => none
  | steps + 1 =>
    match operand multiline level s steps with
    | none => none
    | some rest =>
      let next := between multiline rest
      match operator? next with
      | some right => expression multiline level (between multiline right) steps
      | none =>
        match next with
        | '?' :: yes =>
          match expression multiline level (between multiline yes) steps with
          | none => none
          | some rest =>
            match between multiline rest with
            | ':' :: no => expression multiline level (between multiline no) steps
            | _ => none
        | _ => some rest
termination_by structural steps => steps

/-- Goes behind an operand with its signs and accesses. -/
def operand (multiline : Bool) (level : Nat) (s : List Char) : Nat → Option (List Char)
  | 0 => none
  | steps + 1 =>
    match s with
    | '-' :: rest => operand multiline level (between multiline rest) steps
    | '!' :: rest => operand multiline level (between multiline rest) steps
    | other =>
      match term level other steps with
      | some rest => accesses multiline level rest steps
      | none => none
termination_by structural steps => steps

/-- Goes behind all accesses to parts of a value. Two points never begin one. -/
def accesses (multiline : Bool) (level : Nat) (s : List Char) : Nat → Option (List Char)
  | 0 => none
  | steps + 1 =>
    match between multiline s with
    | '.' :: '.' :: _ => some s
    | '.' :: rest =>
      match breaks rest with
      | '*' :: rest => accesses multiline level rest steps
      | other =>
        match (legacyIndex? other).orElse fun _ => identifier? other with
        | some rest => accesses multiline level rest steps
        | none => none
    | '[' :: rest =>
      if level = 0 then none
      else
        match breaks rest with
        | '*' :: rest =>
          match breaks rest with
          | ']' :: rest => accesses multiline level rest steps
          | _ => none
        | other =>
          match expression true (level - 1) other steps with
          | none => none
          | some rest =>
            match breaks rest with
            | ']' :: rest => accesses multiline level rest steps
            | _ => none
    | _ => some s
termination_by structural steps => steps

/-- Goes behind a literal, a name, a call or a bracketed expression. -/
def term (level : Nat) (s : List Char) : Nat → Option (List Char)
  | 0 => none
  | steps + 1 =>
    match s with
    | [] => none
    | '"' :: rest => template level [] rest steps
    | '[' :: rest =>
      if level = 0 then none
      else
        match keyword? ['f', 'o', 'r'] (breaks rest) with
        | some rest => forList (level - 1) rest steps
        | none => elements (level - 1) (breaks rest) steps
    | '\x7b' :: rest =>
      if level = 0 then none
      else
        match keyword? ['f', 'o', 'r'] (breaks rest) with
        | some rest => forObject (level - 1) rest steps
        | none => members (level - 1) [] rest steps
    | '(' :: rest =>
      if level = 0 then none
      else
        match expression true (level - 1) (breaks rest) steps with
        | none => none
        | some rest =>
          match breaks rest with
          | ')' :: rest => some rest
          | _ => none
    | '<' :: '<' :: '-' :: rest => heredoc level rest steps
    | '<' :: '<' :: rest => heredoc level rest steps
    | c :: rest =>
      if Text.isDigit c then number? (c :: rest)
      else
        match identifier? (c :: rest) with
        | some rest => call level rest steps
        | none => none
termination_by structural steps => steps

/-- Goes behind what may follow a name: the parts of a qualified name and the arguments of a call. -/
def call (level : Nat) (s : List Char) : Nat → Option (List Char)
  | 0 => none
  | steps + 1 =>
    match s with
    | ':' :: ':' :: rest =>
      match identifier? rest with
      | some rest =>
        match rest with
        | ':' :: ':' :: _ => call level rest steps
        | '(' :: _ => call level rest steps
        | _ => none
      | none => none
    | '(' :: rest => if level = 0 then none else arguments (level - 1) (breaks rest) steps
    | other => some other
termination_by structural steps => steps

/-- Goes behind the remaining arguments of a call. -/
def arguments (level : Nat) (s : List Char) : Nat → Option (List Char)
  | 0 => none
  | steps + 1 =>
    match s with
    | ')' :: rest => some rest
    | other =>
      match expression true level other steps with
      | none => none
      | some rest =>
        match breaks rest with
        | ')' :: rest => some rest
        | ',' :: rest => arguments level (breaks rest) steps
        | '.' :: '.' :: '.' :: rest =>
          match breaks rest with
          | ')' :: rest => some rest
          | _ => none
        | _ => none
termination_by structural steps => steps

/-- Goes behind the remaining elements of a list. -/
def elements (level : Nat) (s : List Char) : Nat → Option (List Char)
  | 0 => none
  | steps + 1 =>
    match s with
    | ']' :: rest => some rest
    | other =>
      match expression true level other steps with
      | none => none
      | some rest =>
        match breaks rest with
        | ']' :: rest => some rest
        | ',' :: rest => elements level (breaks rest) steps
        | _ => none
termination_by structural steps => steps

/-- Goes behind the remaining members of an object; no two may have the same key. -/
def members (level : Nat) (keys : List (List Char)) (s : List Char) : Nat → Option (List Char)
  | 0 => none
  | steps + 1 =>
    match breaks s with
    | '\x7d' :: rest => some rest
    | start =>
      match expression false level start steps with
      | none => none
      | some rest =>
        let key := consumed start rest
        if key ∈ keys then none
        else
          let value? := match gap rest with
            | ':' :: rest => some rest
            | other => equals? other
          match value? with
          | none => none
          | some value =>
            match expression false level (gap value) steps with
            | none => none
            | some rest =>
              match gap rest with
              | '\x7d' :: rest => some rest
              | ',' :: rest => members level (key :: keys) rest steps
              | other =>
                if (newline? other).isSome || (lineComment? other).isSome then
                  members level (key :: keys) other steps
                else none
termination_by structural steps => steps

/-- Goes behind the collection that a `for` runs over, up to its colon. -/
def forCollection (level : Nat) (s : List Char) : Nat → Option (List Char)
  | 0 => none
  | steps + 1 =>
    match forNames? s with
    | none => none
    | some rest =>
      match expression true level (breaks rest) steps with
      | none => none
      | some rest =>
        match breaks rest with
        | ':' :: rest => some (breaks rest)
        | _ => none
termination_by structural steps => steps

/-- Goes behind the condition of a `for`, if it has one, and the bracket that ends it. -/
def forEnd (level : Nat) (close : Char) (s : List Char) : Nat → Option (List Char)
  | 0 => none
  | steps + 1 =>
    let next := breaks s
    match keyword? ['i', 'f'] next with
    | some rest =>
      match expression true level (breaks rest) steps with
      | none => none
      | some rest => Text.after? [close] (breaks rest)
    | none => Text.after? [close] next
termination_by structural steps => steps

/-- Goes behind a list that is made by a `for`. -/
def forList (level : Nat) (s : List Char) : Nat → Option (List Char)
  | 0 => none
  | steps + 1 =>
    match forCollection level s steps with
    | none => none
    | some rest =>
      match expression true level rest steps with
      | none => none
      | some rest => forEnd level ']' rest steps
termination_by structural steps => steps

/-- Goes behind an object that is made by a `for`. -/
def forObject (level : Nat) (s : List Char) : Nat → Option (List Char)
  | 0 => none
  | steps + 1 =>
    match forCollection level s steps with
    | none => none
    | some rest =>
      match expression true level rest steps with
      | none => none
      | some rest =>
        match breaks rest with
        | '=' :: '>' :: rest =>
          match expression true level (breaks rest) steps with
          | none => none
          | some rest =>
            match breaks rest with
            | '.' :: '.' :: '.' :: rest => forEnd level '\x7d' rest steps
            | other => forEnd level '\x7d' other steps
        | _ => none
termination_by structural steps => steps

/-- Goes behind a string whose opening quote has been consumed, with the directives that are still open. -/
def template (level : Nat) (opened : List Open) (s : List Char) : Nat → Option (List Char)
  | 0 => none
  | steps + 1 =>
    match s with
    | [] => none
    | '"' :: rest => if opened.isEmpty then some rest else none
    | '\\' :: rest =>
      match escape? rest with
      | some rest => template level opened rest steps
      | none => none
    | other =>
      match markers level opened other steps with
      | some (opened, rest) => template level opened rest steps
      | none => none
termination_by structural steps => steps

/-- Goes behind the text of a heredoc, in which a backslash stands for itself. -/
def rawTemplate (level : Nat) (opened : List Open) (s : List Char) : Nat → Option Unit
  | 0 => none
  | steps + 1 =>
    match s with
    | [] => if opened.isEmpty then some () else none
    | other =>
      match markers level opened other steps with
      | some (opened, rest) => rawTemplate level opened rest steps
      | none => none
termination_by structural steps => steps

/-- Goes behind one character of a template, an escaped marker, an interpolation or a directive. -/
def markers (level : Nat) (opened : List Open) (s : List Char) : Nat → Option (List Open × List Char)
  | 0 => none
  | steps + 1 =>
    match s with
    | '$' :: '$' :: '\x7b' :: rest => some (opened, rest)
    | '%' :: '%' :: '\x7b' :: rest => some (opened, rest)
    | '$' :: '\x7b' :: rest =>
      if level = 0 then none
      else
        match expression true (level - 1) (breaks (trimMark rest)) steps with
        | none => none
        | some rest => (markerEnd? rest).map fun rest => (opened, rest)
    | '%' :: '\x7b' :: rest => if level = 0 then none else directive (level - 1) opened (breaks (trimMark rest)) steps
    | _ :: rest => some (opened, rest)
    | [] => none
termination_by structural steps => steps

/-- Goes behind a directive whose opening brace has been consumed. -/
def directive (level : Nat) (opened : List Open) (s : List Char) : Nat → Option (List Open × List Char)
  | 0 => none
  | steps + 1 =>
    match keyword? ['i', 'f'] s with
    | some rest =>
      match expression true level (breaks rest) steps with
      | none => none
      | some rest => (markerEnd? rest).map fun rest => (.ifBranch :: opened, rest)
    | none =>
      match keyword? ['f', 'o', 'r'] s with
      | some rest =>
        match forNames? rest with
        | none => none
        | some rest =>
          match expression true level (breaks rest) steps with
          | none => none
          | some rest => (markerEnd? rest).map fun rest => (.loop :: opened, rest)
      | none =>
        match keyword? ['e', 'l', 's', 'e'] s, opened with
        | some rest, .ifBranch :: outer =>
          (markerEnd? rest).map fun rest => (.elseBranch :: outer, rest)
        | some _, _ => none
        | none, opened =>
          match keyword? ['e', 'n', 'd', 'i', 'f'] s, opened with
          | some rest, .ifBranch :: outer => (markerEnd? rest).map fun rest => (outer, rest)
          | some rest, .elseBranch :: outer => (markerEnd? rest).map fun rest => (outer, rest)
          | some _, _ => none
          | none, opened =>
            match keyword? ['e', 'n', 'd', 'f', 'o', 'r'] s, opened with
            | some rest, .loop :: outer => (markerEnd? rest).map fun rest => (outer, rest)
            | _, _ => none
termination_by structural steps => steps

/-- Goes behind a heredoc whose opening mark has been consumed; the line ending behind it is left. -/
def heredoc (level : Nat) (s : List Char) : Nat → Option (List Char)
  | 0 => none
  | steps + 1 =>
    match identifier? s with
    | none => none
    | some rest =>
      match newline? rest with
      | none => none
      | some body =>
        match heredocBody? (identifierText s) [] body (body.length + 1) with
        | none => none
        | some (text, rest) => (rawTemplate level [] text steps).map fun _ => rest
termination_by structural steps => steps

end

/-! ## Bodies -/

/-- Goes behind the end of the line on which an attribute or a block ends, or to the end of the text. -/
def lineRest? (s : List Char) : Option (List Char) :=
  let next := gap s
  let next := (lineComment? next).getD next
  match next with
  | [] => some []
  | other => newline? other

/-- The number of brackets that may be nested. The number belongs to `hcl-rs`, the parser library that generated files
are checked with: it gives up on anything that stands in more than 64 brackets. -/
def maxLevel : Nat := 64

mutual

/-- Goes to the brace or the end of the text that ends a body, whose attributes so far have these names. -/
def body (level : Nat) (names : List (List Char)) (s : List Char) : Nat → Option (List Char)
  | 0 => none
  | steps + 1 =>
    match breaks s with
    | [] => some []
    | '\x7d' :: rest => some ('\x7d' :: rest)
    | start =>
      match identifier? start with
      | none => none
      | some rest =>
        let name := identifierText start
        match equals? (gap rest) with
        | some value =>
          if name ∈ names then none
          else
            match expression false level (gap value) steps with
            | none => none
            | some rest =>
              match lineRest? rest with
              | some rest => body level (name :: names) rest steps
              | none => none
        | none =>
          match labels level (gap rest) steps with
          | none => none
          | some rest =>
            match lineRest? rest with
            | some rest => body level names rest steps
            | none => none
termination_by structural steps => steps

/-- Goes behind the labels of a block and its braces. -/
def labels (level : Nat) (s : List Char) : Nat → Option (List Char)
  | 0 => none
  | steps + 1 =>
    match s with
    | '\x7b' :: rest => if level = 0 then none else braces (level - 1) rest steps
    | '"' :: rest =>
      match plainString? rest with
      | some rest => labels level (gap rest) steps
      | none => none
    | other =>
      match identifier? other with
      | some rest => labels level (gap rest) steps
      | none => none
termination_by structural steps => steps

/-- Goes behind the closing brace of a block: on the line of the opening one it may hold one attribute, on
further lines a whole body. -/
def braces (level : Nat) (s : List Char) : Nat → Option (List Char)
  | 0 => none
  | steps + 1 =>
    match gap s with
    | '\x7d' :: rest => some rest
    | first =>
      if (newline? first).isSome || (lineComment? first).isSome then
        match body level [] first steps with
        | some ('\x7d' :: rest) => some rest
        | _ => none
      else
        match identifier? first with
        | none => none
        | some rest =>
          match equals? (gap rest) with
          | none => none
          | some value =>
            match expression false level (gap value) steps with
            | none => none
            | some rest => Text.after? ['\x7d'] (gap rest)
termination_by structural steps => steps

end

/-- Whether a text is a configuration; every character takes a few steps at most. -/
def accepts (s : String) : Bool :=
  body maxLevel [] s.toList (8 * s.toList.length + 8) == some []

end ModuleScaffold.Hcl.Syntax
