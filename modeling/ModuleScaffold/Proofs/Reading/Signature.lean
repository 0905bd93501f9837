import ModuleScaffold.Proofs.Reading.TypeConstraint

/-! # Variables with their types, read back

What every variable of a file is declared with. Main statement: the text of the variables of a resource reads back as
the types and defaults that its block asks for. -/

namespace ModuleScaffold.Inputs

open Reading (Token Lexes IsQuotable)

/-- What a variable is declared with: its name, its type, and whether it is null unless it is set. -/
structure Signature where
  name : String
  type : TypeConstraint
  nullable : Bool

namespace Signature

/-- The tokens behind the line of a description, if they begin with one. -/
def afterDescription (ts : List Token) : List Token :=
  match Token.expect [.word "description", .mark '='] ts with
  | some (.quoted _ :: .mark '\n' :: rest) => rest
  | _ => ts

/-- Whether a default of null is declared here, and the tokens behind it. -/
def readDefault (ts : List Token) : Bool × List Token :=
  match Token.expect [.word "default", .mark '=', .word "null", .mark '\n'] ts with
  | some rest => (true, rest)
  | none => (false, ts)

/-- Reads the variable at the front of some tokens. -/
def readOne (steps : Nat) (ts : List Token) : Option (Signature × List Token) :=
  match Token.expect [.word "variable"] ts with
  | some (.quoted name :: ts) =>
    (Token.expect [.mark '\x7b', .mark '\n'] ts).bind fun ts =>
    (Token.expect [.word "type", .mark '='] (afterDescription ts)).bind fun ts =>
    (TypeConstraint.read steps ts).bind fun (type, ts) =>
    (Token.expect [.mark '\n'] ts).bind fun ts =>
    (Token.expect [.mark '\x7d', .mark '\n'] (readDefault ts).2).map fun rest =>
      (⟨name, type, (readDefault ts).1⟩, rest)
  | _ => none

/-- Reads variables up to the end. -/
def readAll : Nat → List Token → Option (List Signature)
  | 0, _ => none
  | _ + 1, [] => some []
  | steps + 1, t :: ts =>
    if t = .mark '\n' then readAll steps ts
    else (readOne steps (t :: ts)).bind fun (s, rest) => (readAll steps rest).map (s :: ·)

/-- The variables of a file without comments. -/
def ofText (s : String) : Option (List Signature) :=
  (Token.read s).bind fun ts => readAll (ts.length + 1) ts

/-! ## What a block asks for -/

/-- The variable for an item of a single resource. -/
def ofItem? : Item → Option Signature
  | .argument name a => some ⟨name, TypeConstraint.ofType (a.type.getD .any), a.optional⟩
  | .block _ _ none => none
  | .block name nesting (some (_, items)) =>
    if nesting.mode ∈ NestingMode.written then
      let object := TypeConstraint.object (TypeConstraint.ofItems items)
      some ⟨name, if nesting.mode = .single ∨ nesting.maxItems = 1 then object else .list object,
        decide (nesting.minItems = 0)⟩
    else none

/-- The variables of a resource. -/
def ofBlock (block : Block) (variableName : String) : Mode → List Signature
  | .multiple => [⟨variableName, .list (.object (TypeConstraint.ofItems block.items)), true⟩]
  | .single => block.items.filterMap ofItem?

/-! ## Tokens of a variable -/

def descriptionTokens : Option String → List Token
  | none => []
  | some text => [.word "description", .mark '=', .quoted text, .mark '\n']

def defaultTokens (nullable : Bool) : List Token :=
  if nullable then [.word "default", .mark '=', .word "null", .mark '\n'] else []

/-- The tokens of a variable whose type has the tokens `ts`. -/
def variableTokens (name : String) (description : Option String) (ts : List Token) (nullable : Bool) : List Token :=
  [.word "variable", .quoted name, .mark '\x7b', .mark '\n'] ++ descriptionTokens description
    ++ ([.word "type", .mark '='] ++ ts ++ [.mark '\n']) ++ defaultTokens nullable ++ [.mark '\x7d', .mark '\n']

theorem afterDescription_append (description : Option String) (ts : List Token) :
    afterDescription (descriptionTokens description ++ .word "type" :: ts) = .word "type" :: ts := by
  cases description with
  | none => rfl
  | some text => rfl

theorem readDefault_append (nullable : Bool) (ts : List Token) :
    readDefault (defaultTokens nullable ++ .mark '\x7d' :: ts) = (nullable, .mark '\x7d' :: ts) := by
  cases nullable <;> rfl

theorem readOne_variableTokens (name : String) (description : Option String) {ts : List Token}
    {type : TypeConstraint} (nullable : Bool) (ht : TypeConstraint.IsType ts type) (steps : Nat)
    (hsteps : ts.length ≤ steps) (rest : List Token) :
    readOne steps (variableTokens name description ts nullable ++ rest) = some (⟨name, type, nullable⟩, rest) := by
  have htype := ht steps (.mark '\n' :: (defaultTokens nullable ++ .mark '\x7d' :: .mark '\n' :: rest)) hsteps
  have htokens : variableTokens name description ts nullable ++ rest
      = .word "variable" :: .quoted name :: .mark '\x7b' :: .mark '\n' :: (descriptionTokens description
        ++ .word "type" :: .mark '=' :: (ts ++ .mark '\n' :: (defaultTokens nullable
          ++ .mark '\x7d' :: .mark '\n' :: rest))) := by
    simp [variableTokens]
  rw [htokens, readOne]
  simp only [Token.expect, if_true, Option.bind_some, afterDescription_append, htype, readDefault_append,
    Option.map_some]

/-- Tokens that are these variables, up to the end. -/
def AreVariables (ts : List Token) (signatures : List Signature) : Prop :=
  ∀ steps, ts.length < steps → readAll steps ts = some signatures

theorem AreVariables.nil : AreVariables [] [] := by
  intro steps hsteps
  rw [List.length_nil] at hsteps
  obtain ⟨steps, rfl⟩ : ∃ n, steps = n + 1 := ⟨steps - 1, by omega⟩
  rw [readAll]

theorem AreVariables.variable {ts us : List Token} {type : TypeConstraint} {signatures : List Signature}
    (name : String) (description : Option String) (nullable : Bool) (ht : TypeConstraint.IsType ts type)
    (h : AreVariables us signatures) :
    AreVariables (variableTokens name description ts nullable ++ .mark '\n' :: us)
      (⟨name, type, nullable⟩ :: signatures) := by
  intro steps hsteps
  have hlength : ts.length + 2 ≤ (variableTokens name description ts nullable).length := by
    simp [variableTokens]
    omega
  simp only [List.length_append, List.length_cons] at hsteps
  -- One step is for the variable, one for the line behind it, and the others are for what follows.
  obtain ⟨steps, rfl⟩ : ∃ n, steps = n + 2 := ⟨steps - 2, by omega⟩
  have hone := readOne_variableTokens name description nullable ht (steps + 1) (by omega) (.mark '\n' :: us)
  have hfeed : readAll (steps + 1) (.mark '\n' :: us) = some signatures := by
    rw [readAll, if_pos rfl]
    exact h steps (by omega)
  have hcons : ∃ rest, variableTokens name description ts nullable ++ .mark '\n' :: us = .word "variable" :: rest :=
    ⟨_, rfl⟩
  obtain ⟨rest, hrest⟩ := hcons
  rw [hrest] at hone ⊢
  rw [readAll, if_neg (by decide), hone]
  simp only [Option.bind_some, hfeed, Option.map_some]

/-! ## Texts of variables -/

/-- A text that spells these variables and nothing else. -/
def SpellsVariables (s : List Char) (signatures : List Signature) : Prop :=
  ∃ ts, AreVariables ts signatures ∧ Lexes s ts

theorem SpellsVariables.nil : SpellsVariables [] [] := ⟨[], .nil, .nil⟩

theorem SpellsVariables.ofText {s : String} {signatures : List Signature} (h : SpellsVariables s.toList signatures) :
    ofText s = some signatures := by
  obtain ⟨ts, hvariables, hlexes⟩ := h
  rw [Signature.ofText, hlexes.read, Option.bind_some, hvariables _ (Nat.lt_succ_self _)]

theorem isQuotable_escapeChar (c : Char) : IsQuotable (Hcl.Quoted.escapeChar c) := by
  have hdigit : ∀ n < 16, Hcl.Quoted.hexDigit n ≠ '"' ∧ Hcl.Quoted.hexDigit n ≠ '\\' := by decide
  unfold Hcl.Quoted.escapeChar
  repeat' split
  any_goals exact .escape _
  · next hlt =>
    have hc : c.toNat < 32 := hlt
    have hhigh := hdigit (c.toNat / 16) (by omega)
    have hlow := hdigit (c.toNat % 16) (by omega)
    exact (IsQuotable.escape 'u').append ((IsQuotable.char (by decide) (by decide)).append
      ((IsQuotable.char (by decide) (by decide)).append ((IsQuotable.char hhigh.1 hhigh.2).append
        (IsQuotable.char hlow.1 hlow.2))))
  · next hquote hbackslash _ _ _ _ _ _ => exact .char hquote hbackslash

theorem lexes_description (description : Option String) :
    ∃ text, Lexes (Text.charsOf (descriptionLines description)) (descriptionTokens text) := by
  cases description with
  | none => exact ⟨none, .nil⟩
  | some description =>
    have hname : Text.IsName "description".toList := .of_isIdentifier (by decide)
    have hquoted := (IsQuotable.flatMap isQuotable_escapeChar
      (Hcl.Quoted.escapeTemplates (onOneLine description.toList))).lexes
    have hline := (Lexes.pad Reading.isPad_two).append
      ((TypeConstraint.lexes_assigning hname hquoted).append (.mark (c := '\n') (by decide)))
    refine ⟨some (String.ofList ((Hcl.Quoted.escapeTemplates (onOneLine description.toList)).flatMap
      Hcl.Quoted.escapeChar)), ?_⟩
    simpa [descriptionLines, descriptionTokens, Reading.assigning, Hcl.Quoted.encode] using hline

theorem lexes_default (nullable : Bool) :
    Lexes (Text.charsOf (defaultLines nullable)) (defaultTokens nullable) := by
  cases nullable with
  | false => exact .nil
  | true =>
    have hname : Text.IsName "default".toList := .of_isIdentifier (by decide)
    have hnull := Lexes.word (w := "null".toList) (.of_isIdentifier (by decide)) (by decide)
      (.mark (c := '\n') (by decide))
    have hline := (Lexes.pad Reading.isPad_two).append (TypeConstraint.lexes_assigning hname hnull)
    simpa [defaultLines, defaultTokens, Reading.assigning] using hline

/-- A name that may stand between quotes as it is. -/
def IsQuotableName (name : String) : Prop := '"' ∉ name.toList ∧ '\\' ∉ name.toList

theorem IsQuotableName.of_isIdentifier {name : String} (h : Text.isIdentifier name.toList = true) :
    IsQuotableName name :=
  ⟨(Text.IsName.of_isIdentifier h).not_mem _ (by decide), (Text.IsName.of_isIdentifier h).not_mem _ (by decide)⟩

theorem SpellsVariables.variable {name : String} {value s : List Char} {type : TypeConstraint}
    {signatures : List Signature} (description : Option String) (nullable : Bool) (hn : IsQuotableName name)
    (hv : TypeConstraint.Spells value type) (h : SpellsVariables s signatures) :
    SpellsVariables (variableText name.toList (Text.charsOf (descriptionLines description)
        ++ ([' ', ' '] ++ Reading.assigning "type".toList value ++ ['\n'] ++ Text.charsOf (defaultLines nullable))) ++ s)
      (⟨name, type, nullable⟩ :: signatures) := by
  obtain ⟨ts, htype, hvalue⟩ := hv
  obtain ⟨us, hvariables, hlexes⟩ := h
  obtain ⟨text, hdescription⟩ := lexes_description description
  refine ⟨_, .variable name text nullable htype hvariables, ?_⟩
  have hkind : Text.IsName "variable".toList := .of_isIdentifier (by decide)
  have hlabel := (IsQuotable.of_not_mem hn.1 hn.2).lexes
  rw [String.ofList_toList] at hlabel
  have hbrace := (Lexes.mark (c := '\x7b') (by decide)).append (Lexes.mark (c := '\n') (by decide))
  have hopening := Lexes.word hkind (by decide) (Lexes.blank.append (hlabel.append (Lexes.blank.append hbrace)))
  have hline := (Lexes.pad Reading.isPad_two).append (TypeConstraint.lexes_assigning isName_type (hvalue '\n' (by decide)))
  have hclosing := (Lexes.mark (c := '\x7d') (by decide)).append
    ((Lexes.mark (c := '\n') (by decide)).append (Lexes.mark (c := '\n') (by decide)))
  have hall := hopening.append (hdescription.append (hline.append ((lexes_default nullable).append
    (hclosing.append hlexes))))
  simpa [variableTokens, variableText, Reading.blockOpening, Reading.assigning] using hall

/-! ## What is written -/

theorem charsOf_comment_false (pad description : String) :
    Text.charsOf (commentLines pad (commentFor false description)) = [] := by
  simp [commentFor, commentLines]

theorem held_holdsOne (nesting : Nesting) (type : TypeConstraint) :
    TypeConstraint.held (if nesting.holdsOne then .object else .list) type
      = if nesting.mode = .single ∨ nesting.maxItems = 1 then type else .list type := by
  have hiff : nesting.holdsOne = true ↔ nesting.mode = .single ∨ nesting.maxItems = 1 := by
    simp [Nesting.holdsOne]
  by_cases h : nesting.holdsOne = true
  · rw [if_pos h, if_pos (hiff.mp h)]
    rfl
  · rw [if_neg h, if_neg fun h' => h (hiff.mpr h')]
    rfl

theorem isOptional_eq_decide (nesting : Nesting) : nesting.isOptional = decide (nesting.minItems = 0) := rfl

theorem spells_variableOf (i : Item) (hi : Item.areNamed [i] = true) {s : List Char} {signatures : List Signature}
    (h : SpellsVariables s signatures) :
    SpellsVariables (Text.charsOf (variableOf false i).lines ++ s) ((ofItem? i).toList ++ signatures) := by
  match i with
  | .argument name a =>
    simp only [Item.areNamed, Bool.and_eq_true] at hi
    have htype := TypeConstraint.spells_type 1 _ (TypeConstraint.isNamed_getD hi.1.2)
    have hvariable := h.variable (if a.description = "" then none else some a.description) a.optional
      (.of_isIdentifier hi.1.1) htype
    rw [variableOf, charsOf_variable_value, charsOf_comment_false]
    simpa [typeText, ofItem?] using hvariable
  | .block name _ none => exact h
  | .block name nesting (some (description, items)) =>
    simp only [Item.areNamed, Bool.and_eq_true] at hi
    rw [variableOf, ofItem?]
    simp only [isSupported_iff_written]
    split
    · have hheld := TypeConstraint.spells_held (if nesting.holdsOne then .object else .list)
        (TypeConstraint.spells_fields items hi.1.2 2) Reading.isPad_two
      have hvariable := h.variable none nesting.isOptional (.of_isIdentifier hi.1.1) hheld
      have hpad : (AttributeType.indent 1).toList = [' ', ' '] := String.toList_ofList
      rw [held_holdsOne, isOptional_eq_decide] at hvariable
      rw [charsOf_variable_object, charsOf_comment_false, isOptional_eq_decide]
      simpa [objectText, descriptionLines, Reading.assigning, hpad] using hvariable
    · exact h

theorem spells_variables (items : List Item) (hi : Item.areNamed items = true) :
    SpellsVariables (Text.charsOf ((items.map (variableOf false)).flatMap Variable.lines))
      (items.filterMap ofItem?) := by
  induction items with
  | nil => exact .nil
  | cons i rest ih =>
    rw [Item.areNamed_cons, Bool.and_eq_true] at hi
    have hall := spells_variableOf i hi.1 (ih hi.2)
    rw [List.map_cons, List.flatMap_cons, Text.charsOf_append, List.filterMap_cons]
    cases hs : ofItem? i <;> rw [hs] at hall <;> exact hall

/-- Every variable of a resource is declared with the type and the default that the block asks for: the text reads
back as nothing else. -/
theorem signatures_read_back (block : Block) (mode : Mode) (variableName : String) (hb : block.isNamed = true)
    (hn : IsQuotableName variableName) :
    ofText (Text.ofLines (resourceLines false block mode variableName)) = some (ofBlock block variableName mode) := by
  have hitems : Item.areNamed block.items = true := by rw [areNamed_items]; exact hb
  apply SpellsVariables.ofText
  rw [Text.toList_ofLines]
  cases mode with
  | single => exact spells_variables block.items hitems
  | multiple =>
    have hheld := TypeConstraint.spells_held .list (TypeConstraint.spells_fields block.items hitems 2) Reading.isPad_two
    have hvariable := SpellsVariables.nil.variable none true hn hheld
    have hlines : resourceLines false block .multiple variableName
        = (Variable.object variableName none .list true (fields false block.items)).lines := by
      simp [resourceLines, variablesOf, Variable.lines, commentLines]
    have hpad : (AttributeType.indent 1).toList = [' ', ' '] := String.toList_ofList
    rw [hlines, charsOf_variable_object]
    simpa [objectText, descriptionLines, commentLines, Reading.assigning, hpad, TypeConstraint.held, ofBlock]
      using hvariable

/-- A block with nested blocks of every mode that can be written, optional and required ones, an object type between
them, a description of two lines and two blocks that nothing is declared for. -/
def mountedDisks : Block :=
  .mk [("size", ⟨some .number, "How \"large\"\nit is", true, false, false⟩),
      ("labels", ⟨some (.map (.object [("key", .string), ("marks", .set .bool)])), "", false, true, false⟩)]
    [("disk", ⟨.list, 1, 0⟩, some (.mk [("path", ⟨none, "", true, false, false⟩)]
        [("mount", ⟨.set, 0, 0⟩, some (.mk [("mode", ⟨some .number, "", false, true, false⟩)] [] "")),
          ("owner", ⟨.single, 1, 1⟩, some (.mk [] [] ""))] "")),
      ("limit", ⟨.set, 0, 1⟩, some (.mk [] [] "")), ("quota", ⟨.map, 0, 0⟩, some (.mk [] [] "")),
      ("tag", ⟨.single, 0, 1⟩, none)] ""

/-- What is held for a disk. -/
def diskType : TypeConstraint :=
  .object [("mount", .optional (.set (.object [("mode", .optional .number)]))), ("owner", .object []), ("path", .any)]

/-- What is held for the labels. -/
def labelsType : TypeConstraint := .map (.object [("key", .string), ("marks", .set .bool)])

theorem ofBlock_mountedDisks (mode : Mode) :
    ofBlock mountedDisks "machines" mode = match mode with
      | .multiple => [⟨"machines", .list (.object [("disk", .list diskType), ("labels", .optional labelsType),
          ("limit", .optional (.set (.object []))), ("size", .number)]), true⟩]
      | .single => [⟨"disk", .list diskType, false⟩, ⟨"labels", labelsType, true⟩, ⟨"limit", .object [], true⟩,
          ⟨"size", .number, false⟩] := by
  cases mode <;>
    simp [mountedDisks, diskType, labelsType, ofBlock, ofItem?, Block.items, nestedItems, Item.sort, List.mergeSort,
      List.MergeSort.Internal.splitInTwo, Item.before, Item.name, TypeConstraint.ofItems, TypeConstraint.ofType,
      TypeConstraint.ofMembers, TypeConstraint.optionalUnless, NestingMode.written]

theorem signatures_read_back_mountedDisks :
    ofText (Text.ofLines (resourceLines false mountedDisks .multiple "machines"))
      = some [⟨"machines", .list (.object [("disk", .list diskType), ("labels", .optional labelsType),
          ("limit", .optional (.set (.object []))), ("size", .number)]), true⟩] ∧
    ofText (Text.ofLines (resourceLines false mountedDisks .single "machines"))
      = some [⟨"disk", .list diskType, false⟩, ⟨"labels", labelsType, true⟩, ⟨"limit", .object [], true⟩,
          ⟨"size", .number, false⟩] := by
  have hblock : mountedDisks.isNamed = true := by decide
  have hname : IsQuotableName "machines" := .of_isIdentifier (by decide)
  constructor
  · rw [signatures_read_back mountedDisks .multiple "machines" hblock hname, ofBlock_mountedDisks]
  · rw [signatures_read_back mountedDisks .single "machines" hblock hname, ofBlock_mountedDisks]

end Signature

end ModuleScaffold.Inputs
