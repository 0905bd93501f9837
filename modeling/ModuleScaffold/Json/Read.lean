import ModuleScaffold.Json.Shape
import ModuleScaffold.Json.Skip

/-! # Reading a document of a given shape

The reader yields the document as a plain value in which every record is an object of its known members. It
looks at nothing behind the value. -/

namespace ModuleScaffold.Json

/-! ## Parts of lists and objects -/

/-- Goes to the next element of a list, or behind its end. -/
def nextElement (first : Bool) (s : List Char) : Except Fault (Option Unit × List Char) :=
  match skipSpaces s with
  | [] => stopAt .endInList []
  | c :: rest =>
    if c = ']' then .ok (none, rest)
    else if first then .ok (some (), c :: rest)
    else if c = ',' then
      match skipSpaces rest with
      | [] => stopAt .endInValue []
      | ']' :: rest => stopAt .trailingComma (']' :: rest)
      | other => .ok (some (), other)
    else stopAt .expectedCommaOrBracket (c :: rest)

/-- Reads a key whose opening quote has been consumed. -/
def keyBody (s : List Char) : Except Fault (Option String × List Char) :=
  match stringBody s with
  | .ok (key, rest) => .ok (some (String.ofList key), rest)
  | .error f => .error f

/-- Reads the next key of an object, or goes behind its end. -/
def nextKey (first : Bool) (s : List Char) : Except Fault (Option String × List Char) :=
  inside .unknownKey <|
    match skipSpaces s with
    | [] => stopAt .endInObject []
    | c :: rest =>
      if c = '\x7d' then .ok (none, rest)
      else if first then
        if c = '"' then keyBody rest else stopAt .keyNotString (c :: rest)
      else if c = ',' then
        match skipSpaces rest with
        | [] => stopAt .endInValue []
        | d :: rest =>
          if d = '"' then keyBody rest
          else if d = '\x7d' then stopAt .trailingComma (d :: rest)
          else stopAt .keyNotString (d :: rest)
      else stopAt .expectedCommaOrBrace (c :: rest)

/-- Goes behind the colon between a key and its value. -/
def expectColon (s : List Char) : Except Fault (List Char) :=
  match skipSpaces s with
  | [] => stopAt .endInObject []
  | ':' :: rest => .ok rest
  | other => stopAt .expectedColon other

/-- The text behind a key that is refused: blanks are passed over, and so is the end of the object. -/
def behindKey (s : List Char) : List Char :=
  match skipSpaces s with
  | '\x7d' :: rest => rest
  | other => other

/-- Goes behind the end of a list that has no room for further elements. -/
def endList (s : List Char) : Except Fault (List Char) :=
  match skipSpaces s with
  | [] => stopAt .endInList []
  | ']' :: rest => .ok rest
  | ',' :: rest =>
    match skipSpaces rest with
    | ']' :: rest => stopAt .trailingComma (']' :: rest)
    | other => stopAt .trailingCharacters other
  | other => stopAt .trailingCharacters other

/-! ## Single values -/

/-- The fault of a number where something else is wanted. -/
def numberMismatch (wanted : String) (isNegative : Bool) (s : List Char) : Except Fault α :=
  match numberBody isNegative s with
  | .ok (n, rest) => stop (.invalidType (.number n) wanted) rest 0
  | .error f => .error f

/-- The fault of a word where something else is wanted. -/
def wordMismatch (wanted : String) (found : Found) (letters s : List Char) : Except Fault α :=
  match expectWord letters s with
  | .ok rest => stop (.invalidType found wanted) rest 0
  | .error f => .error f

/-- The fault of a value, beginning with `c`, where something else is wanted. A scalar is read to its end
first; a list or an object is not entered. -/
def mismatch (wanted : String) (c : Char) (rest : List Char) : Except Fault α :=
  if c = 'n' then wordMismatch wanted .null ['u', 'l', 'l'] rest
  else if c = 't' then wordMismatch wanted (.bool true) ['r', 'u', 'e'] rest
  else if c = 'f' then wordMismatch wanted (.bool false) ['a', 'l', 's', 'e'] rest
  else if c = '-' then numberMismatch wanted true rest
  else if Text.isDigit c then numberMismatch wanted false (c :: rest)
  else if c = '"' then
    match stringBody rest with
    | .ok (s, rest) => stop (.invalidType (.string (String.ofList s)) wanted) rest 0
    | .error f => .error f
  else if c = '[' then stop (.invalidType .sequence wanted) (c :: rest) 0
  else if c = '\x7b' then stop (.invalidType .map wanted) (c :: rest) 0
  else stopAt .expectedValue (c :: rest)

/-- Reads a string. -/
def readText (wanted : String) : Reader String := fun s =>
  match skipSpaces s with
  | [] => stopAt .endInValue []
  | c :: rest =>
    if c = '"' then
      match stringBody rest with
      | .ok (text, rest) => .ok (String.ofList text, rest)
      | .error f => .error f
    else mismatch wanted c rest

/-- Reads `true` or `false`. -/
def readFlag : Reader Json := fun s =>
  match skipSpaces s with
  | [] => stopAt .endInValue []
  | c :: rest =>
    if c = 't' then (expectWord ['r', 'u', 'e'] rest).map fun rest => (.bool true, rest)
    else if c = 'f' then (expectWord ['a', 'l', 's', 'e'] rest).map fun rest => (.bool false, rest)
    else mismatch "a boolean" c rest

/-- Takes a number as a count. -/
def countOf : Except Fault (Number × List Char) → Except Fault (Json × List Char)
  | .ok (.whole n, rest) => .ok (.number (.whole n), rest)
  | .ok (.negative n, rest) => stop (.invalidValue (.number (.negative n)) "u64") rest 0
  | .ok (n, rest) => stop (.invalidType (.number n) "u64") rest 0
  | .error f => .error f

/-- Reads a whole number that fits 64 bits. -/
def readCount : Reader Json := fun s =>
  match skipSpaces s with
  | [] => stopAt .endInValue []
  | c :: rest =>
    if c = '-' then countOf (numberBody true rest)
    else if Text.isDigit c then countOf (numberBody false (c :: rest))
    else mismatch "u64" c rest

/-- Reads `null`. -/
def readNull : Reader Unit := fun s =>
  match skipSpaces s with
  | [] => stopAt .endInValue []
  | c :: rest =>
    if c = 'n' then (expectWord ['u', 'l', 'l'] rest).map fun rest => ((), rest)
    else mismatch "unit" c rest

/-- Reads a word behind the opening brace of the object that it is the only key of. -/
def readWordObject : Reader Json := fun s =>
  match readText "variant identifier" s with
  | .error f => .error f
  | .ok (name, rest) =>
    match expectColon rest with
    | .error f => .error f
    | .ok rest =>
      match inside (.key name) (readNull rest) with
      | .error f => .error f
      | .ok (_, rest) =>
        match skipSpaces rest with
        | [] => stop .endInObject [] 0
        | '\x7d' :: rest => .ok (.string name, rest)
        | other => stop .expectedValue other 0

/-- Reads a word, with room for `depth` further levels. -/
def readWord (depth : Nat) : Reader Json := fun s =>
  match skipSpaces s with
  | [] => stopAt .endInValue []
  | c :: rest =>
    if c = '\x7b' then
      if depth = 0 then stopAt .recursionLimit (c :: rest) else readWordObject rest
    else if c = '"' then (readText "variant identifier" (c :: rest)).map fun (w, rest) => (.string w, rest)
    else stopAt .expectedValue (c :: rest)

/-- Reads a scalar that begins with `c`. -/
def readScalar (c : Char) (rest : List Char) : Except Fault (Json × List Char) :=
  if c = 'n' then (expectWord ['u', 'l', 'l'] rest).map fun rest => (.null, rest)
  else if c = 't' then (expectWord ['r', 'u', 'e'] rest).map fun rest => (.bool true, rest)
  else if c = 'f' then (expectWord ['a', 'l', 's', 'e'] rest).map fun rest => (.bool false, rest)
  else if c = '-' then (numberBody true rest).map fun (n, rest) => (.number n, rest)
  else if Text.isDigit c then (numberBody false (c :: rest)).map fun (n, rest) => (.number n, rest)
  else if c = '"' then (stringBody rest).map fun (s, rest) => (.string (String.ofList s), rest)
  else stopAt .expectedValue (c :: rest)

/-! ## Values of any shape -/

/-- An element before the further elements of its list. -/
def addElement (element : Json) : Except Fault (List Json × List Char) → Except Fault (List Json × List Char)
  | .ok (elements, rest) => .ok (element :: elements, rest)
  | .error f => .error f

/-- A member before the further members of its object. -/
def addMember (name : String) (value : Json) :
    Except Fault (List (String × Json) × List Char) → Except Fault (List (String × Json) × List Char)
  | .ok (members, rest) => .ok ((name, value) :: members, rest)
  | .error f => .error f

mutual

/-- Reads a value of a shape, with room for `depth` further levels of lists and objects. -/
def readValue (v : Vocabulary ρ) (shape : Shape ρ) (depth : Nat) (s : List Char) :
    Nat → Except Fault (Json × List Char)
  | 0 => stop .endInValue s 0
  | steps + 1 =>
    match shape with
    | .text => (readText "a string" s).map fun (t, rest) => (.string t, rest)
    | .flag => readFlag s
    | .count => readCount s
    | .word => readWord depth s
    | .optional inner =>
      match skipSpaces s with
      | 'n' :: rest => (expectWord ['u', 'l', 'l'] rest).map fun rest => (.null, rest)
      | other => readValue v inner depth other steps
    | .any =>
      match skipSpaces s with
      | [] => stopAt .endInValue []
      | c :: rest =>
        if c = '[' then
          if depth = 0 then stopAt .recursionLimit (c :: rest)
          else (readElements v .any 0 (depth - 1) rest steps).map fun (es, rest) => (.array es, rest)
        else if c = '\x7b' then
          if depth = 0 then stopAt .recursionLimit (c :: rest)
          else (readTable v .any true (depth - 1) rest steps).map fun (ms, rest) => (.object ms, rest)
        else readScalar c rest
    | .list element =>
      match skipSpaces s with
      | [] => stopAt .endInValue []
      | c :: rest =>
        if c = '[' then
          if depth = 0 then stopAt .recursionLimit (c :: rest)
          else (readElements v element 0 (depth - 1) rest steps).map fun (es, rest) => (.array es, rest)
        else mismatch "a sequence" c rest
    | .table value =>
      match skipSpaces s with
      | [] => stopAt .endInValue []
      | c :: rest =>
        if c = '\x7b' then
          if depth = 0 then stopAt .recursionLimit (c :: rest)
          else (readTable v value true (depth - 1) rest steps).map fun (ms, rest) => (.object ms, rest)
        else mismatch "a map" c rest
    | .record name =>
      match skipSpaces s with
      | [] => stopAt .endInValue []
      | c :: rest =>
        if c = '[' then
          if depth = 0 then stopAt .recursionLimit (c :: rest)
          else
            (readFields v (v.members name) 0 (depth - 1) rest steps).map fun (ms, rest) =>
              (.object ms, rest)
        else if c = '\x7b' then
          if depth = 0 then stopAt .recursionLimit (c :: rest)
          else
            (readMembers v (v.members name) [] true (depth - 1) rest steps).map fun (ms, rest) =>
              (.object ms, rest)
        else mismatch ("struct " ++ v.title name) c rest
termination_by structural steps => steps

/-- Reads the elements of a list from the `i`-th on, and its end. -/
def readElements (v : Vocabulary ρ) (shape : Shape ρ) (i depth : Nat) (s : List Char) :
    Nat → Except Fault (List Json × List Char)
  | 0 => stop .endInList s 0
  | steps + 1 =>
    match nextElement (i == 0) s with
    | .error f => .error f
    | .ok (none, rest) => .ok ([], rest)
    | .ok (some _, rest) =>
      match inside (.index i) (readValue v shape depth rest steps) with
      | .error f => .error f
      | .ok (element, rest) => addElement element (readElements v shape (i + 1) depth rest steps)
termination_by structural steps => steps

/-- Reads the remaining members of a table. -/
def readTable (v : Vocabulary ρ) (shape : Shape ρ) (first : Bool) (depth : Nat) (s : List Char) :
    Nat → Except Fault (List (String × Json) × List Char)
  | 0 => stop .endInObject s 0
  | steps + 1 =>
    match nextKey first s with
    | .error f => .error f
    | .ok (none, rest) => .ok ([], rest)
    | .ok (some key, rest) =>
      match expectColon rest with
      | .error f => .error f
      | .ok rest =>
        match inside (.key key) (readValue v shape depth rest steps) with
        | .error f => .error f
        | .ok (value, rest) => addMember key value (readTable v shape false depth rest steps)
termination_by structural steps => steps

/-- Reads the remaining members of a record; those in `seen` have been read before. -/
def readMembers (v : Vocabulary ρ) (fields : List (String × Shape ρ)) (seen : List String) (first : Bool)
    (depth : Nat) (s : List Char) : Nat → Except Fault (List (String × Json) × List Char)
  | 0 => stop .endInObject s 0
  | steps + 1 =>
    match nextKey first s with
    | .error f => .error f
    | .ok (none, rest) => .ok ([], rest)
    | .ok (some key, rest) =>
      match memberShape? key fields with
      | none =>
        match expectColon rest with
        | .error f => .error f
        | .ok rest =>
          match inside (.key key) (skipValue rest) with
          | .error f => .error f
          | .ok rest => readMembers v fields seen false depth rest steps
      | some shape =>
        if key ∈ seen then stop (.duplicateField key) (behindKey rest) 0
        else
          match expectColon rest with
          | .error f => .error f
          | .ok rest =>
            match inside (.key key) (readValue v shape depth rest steps) with
            | .error f => .error f
            | .ok (value, rest) =>
              addMember key value (readMembers v fields (key :: seen) false depth rest steps)
termination_by structural steps => steps

/-- Reads the members of a record that is written as a list, from the `i`-th on, and the end of the list. -/
def readFields (v : Vocabulary ρ) (fields : List (String × Shape ρ)) (i depth : Nat) (s : List Char) :
    Nat → Except Fault (List (String × Json) × List Char)
  | 0 => stop .endInList s 0
  | steps + 1 =>
    match fields with
    | [] => (endList s).map fun rest => ([], rest)
    | (name, shape) :: others =>
      match nextElement (i == 0) s with
      | .error f => .error f
      | .ok (none, rest) => .ok ([], rest)
      | .ok (some _, rest) =>
        match inside (.index i) (readValue v shape depth rest steps) with
        | .error f => .error f
        | .ok (value, rest) => addMember name value (readFields v others (i + 1) depth rest steps)
termination_by structural steps => steps

end

/-- The levels of lists and objects that a document may have. -/
def maxDepth : Nat := 127

/-- Reads the value at the front of a text; every character takes three steps at most. -/
def readFront (v : Vocabulary ρ) (shape : Shape ρ) (s : List Char) : Except Fault (Json × List Char) :=
  readValue v shape maxDepth s (3 * s.length + 3)

/-- Reads a document. What follows its first value is not looked at. -/
def read (v : Vocabulary ρ) (shape : Shape ρ) (input : String) : Except Problem Json :=
  match readFront v shape input.toList with
  | .ok (value, _) => .ok value
  | .error f => .error (f.report input.toList)

end ModuleScaffold.Json
