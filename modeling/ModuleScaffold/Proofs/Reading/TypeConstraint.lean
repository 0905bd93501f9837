import ModuleScaffold.Proofs.Reading.Inputs
import ModuleScaffold.Proofs.Reading.Token

/-! # Declared types, read back

The grammar of the types that variables are declared with. Main statement: the fields that are written for the items
of a block read back as the types that the block asks for. -/

namespace ModuleScaffold.Inputs

open Reading (Token Lexes)

/-! ## The grammar -/

/-- A type as a variable declares it. -/
inductive TypeConstraint where
  | string
  | number
  | bool
  | any
  | list (element : TypeConstraint)
  | set (element : TypeConstraint)
  | map (element : TypeConstraint)
  | optional (inner : TypeConstraint)
  | object (fields : List (String × TypeConstraint))

namespace TypeConstraint

/-- The type that a word is. -/
def plain? (word : String) : Option TypeConstraint :=
  if word = "string" then some string
  else if word = "number" then some number
  else if word = "bool" then some bool
  else if word = "any" then some any
  else none

/-- What a word makes of the type in the parentheses behind it. -/
def around? (word : String) : Option (TypeConstraint → TypeConstraint) :=
  if word = "list" then some list
  else if word = "set" then some set
  else if word = "map" then some map
  else if word = "optional" then some optional
  else none

mutual

/-- Reads the type at the front of some tokens; no more steps are needed than there are tokens. -/
def read : Nat → List Token → Option (TypeConstraint × List Token)
  | 0, _ => none
  | steps + 1, .word w :: ts =>
    match plain? w with
    | some type => some (type, ts)
    | none =>
      if w = "object" then
        (Token.expect [.mark '(', .mark '\x7b', .mark '\n'] ts).bind fun ts =>
        (readFields steps ts).bind fun (fields, ts) =>
        (Token.expect [.mark ')'] ts).map fun ts => (object fields, ts)
      else
        (around? w).bind fun around =>
        (Token.expect [.mark '('] ts).bind fun ts =>
        (read steps ts).bind fun (type, ts) =>
        (Token.expect [.mark ')'] ts).map fun ts => (around type, ts)
  | _ + 1, _ => none
termination_by structural steps => steps

/-- Reads the fields of an object, one on a line, and the brace behind them. -/
def readFields : Nat → List Token → Option (List (String × TypeConstraint) × List Token)
  | 0, _ => none
  | steps + 1, .mark c :: ts =>
    if c = '\n' then readFields steps ts else if c = '\x7d' then some ([], ts) else none
  | steps + 1, .word name :: ts =>
    (Token.expect [.mark '='] ts).bind fun ts =>
    (read steps ts).bind fun (type, ts) =>
    (Token.expect [.mark '\n'] ts).bind fun ts =>
    (readFields steps ts).map fun (fields, ts) => ((name, type) :: fields, ts)
  | _ + 1, _ => none
termination_by structural steps => steps

end

/-! ## What a block asks for -/

mutual

def ofType : AttributeType → TypeConstraint
  | .string => string
  | .number => number
  | .bool => bool
  | .any => any
  | .list element => list (ofType element)
  | .set element => set (ofType element)
  | .map element => map (ofType element)
  | .object fields => object (ofMembers fields)

def ofMembers : List (String × AttributeType) → List (String × TypeConstraint)
  | [] => []
  | (name, type) :: rest => (name, ofType type) :: ofMembers rest

end

def optionalUnless (required : Prop) [Decidable required] (type : TypeConstraint) : TypeConstraint :=
  if required then type else optional type

/-- The fields of the object that holds the items of a block. -/
def ofItems : List Item → List (String × TypeConstraint)
  | [] => []
  | .argument name a :: rest => (name, optionalUnless (a.required = true) (ofType (a.type.getD .any))) :: ofItems rest
  | .block _ _ none :: rest => ofItems rest
  | .block name nesting (some (_, items)) :: rest =>
    (match nesting.mode with
      | .single => [(name, optionalUnless (nesting.minItems ≠ 0) (object (ofItems items)))]
      | .list => [(name, optionalUnless (nesting.minItems ≠ 0) (list (object (ofItems items))))]
      | .set => [(name, optionalUnless (nesting.minItems ≠ 0) (set (object (ofItems items))))]
      | .map | .group | .unknown => []) ++ ofItems rest

/-! ## Tokens of a type -/

/-- Tokens that are this type, whatever follows them. -/
def IsType (ts : List Token) (type : TypeConstraint) : Prop :=
  ∀ steps rest, ts.length ≤ steps → read steps (ts ++ rest) = some (type, rest)

/-- Tokens that are these fields, up to the brace behind them. -/
def AreFields (ts : List Token) (fields : List (String × TypeConstraint)) : Prop :=
  ∀ steps rest, ts.length < steps → readFields steps (ts ++ .mark '\x7d' :: rest) = some (fields, rest)

theorem IsType.plain {w : String} {type : TypeConstraint} (h : plain? w = some type) : IsType [.word w] type := by
  intro steps rest hsteps
  rw [List.length_singleton] at hsteps
  obtain ⟨steps, rfl⟩ : ∃ n, steps = n + 1 := ⟨steps - 1, by omega⟩
  rw [List.singleton_append, read, h]

theorem IsType.around {w : String} {around : TypeConstraint → TypeConstraint} {ts : List Token}
    {type : TypeConstraint} (hp : plain? w = none) (ho : w ≠ "object") (ha : around? w = some around)
    (h : IsType ts type) : IsType (.word w :: .mark '(' :: (ts ++ [.mark ')'])) (around type) := by
  intro steps rest hsteps
  simp only [List.length_cons, List.length_append, List.length_nil] at hsteps
  obtain ⟨steps, rfl⟩ : ∃ n, steps = n + 1 := ⟨steps - 1, by omega⟩
  have hinner := h steps (.mark ')' :: rest) (by omega)
  rw [List.cons_append, List.cons_append, List.append_assoc, List.singleton_append, read, hp]
  simp only [if_neg ho, ha, Token.expect, if_true, Option.bind_some, hinner, Option.map_some]

theorem IsType.object {ts : List Token} {fields : List (String × TypeConstraint)} (h : AreFields ts fields) :
    IsType (.word "object" :: .mark '(' :: .mark '\x7b' :: .mark '\n' :: (ts ++ [.mark '\x7d', .mark ')']))
      (.object fields) := by
  intro steps rest hsteps
  simp only [List.length_cons, List.length_append, List.length_nil] at hsteps
  obtain ⟨steps, rfl⟩ : ∃ n, steps = n + 1 := ⟨steps - 1, by omega⟩
  have hinner := h steps (.mark ')' :: rest) (by omega)
  have hplain : plain? "object" = none := rfl
  simp only [List.cons_append, List.append_assoc, List.nil_append]
  rw [read, hplain]
  simp only [if_true, Token.expect, Option.bind_some, hinner, Option.map_some]

theorem AreFields.nil : AreFields [] [] := by
  intro steps rest hsteps
  rw [List.length_nil] at hsteps
  obtain ⟨steps, rfl⟩ : ∃ n, steps = n + 1 := ⟨steps - 1, by omega⟩
  rw [List.nil_append, readFields, if_neg (by decide), if_pos rfl]

theorem AreFields.feed {ts : List Token} {fields : List (String × TypeConstraint)} (h : AreFields ts fields) :
    AreFields (.mark '\n' :: ts) fields := by
  intro steps rest hsteps
  rw [List.length_cons] at hsteps
  obtain ⟨steps, rfl⟩ : ∃ n, steps = n + 1 := ⟨steps - 1, by omega⟩
  rw [List.cons_append, readFields, if_pos rfl]
  exact h steps rest (by omega)

theorem AreFields.field {ts us : List Token} {type : TypeConstraint} {fields : List (String × TypeConstraint)}
    (name : String) (ht : IsType ts type) (h : AreFields us fields) :
    AreFields (.word name :: .mark '=' :: (ts ++ .mark '\n' :: us)) ((name, type) :: fields) := by
  intro steps rest hsteps
  simp only [List.length_cons, List.length_append] at hsteps
  obtain ⟨steps, rfl⟩ : ∃ n, steps = n + 1 := ⟨steps - 1, by omega⟩
  have htype := ht steps (.mark '\n' :: (us ++ .mark '\x7d' :: rest)) (by omega)
  have hfields := h steps rest (by omega)
  simp only [List.cons_append, List.append_assoc]
  rw [readFields]
  simp only [Token.expect, if_true, Option.bind_some, htype, hfields, Option.map_some]

/-! ## Texts of types -/

/-- A text that spells a type, if a mark follows it. -/
def Spells (s : List Char) (type : TypeConstraint) : Prop :=
  ∃ ts, IsType ts type ∧ ∀ c ∈ Token.marks, Lexes (s ++ [c]) (ts ++ [.mark c])

/-- A text of whole lines that spells fields. -/
def SpellsFields (s : List Char) (fields : List (String × TypeConstraint)) : Prop :=
  ∃ ts, AreFields ts fields ∧ Lexes s ts

theorem Spells.plain {w : String} {type : TypeConstraint} (hw : Text.IsName w.toList)
    (h : plain? w = some type) : Spells w.toList type := by
  refine ⟨_, .plain h, ?_⟩
  intro c hc
  have hword := Lexes.word hw (Token.of_mem_marks hc).1 (.mark hc)
  rwa [String.ofList_toList] at hword

theorem Spells.around {w : String} {s : List Char} {around : TypeConstraint → TypeConstraint} {type : TypeConstraint}
    (hw : Text.IsName w.toList) (hp : plain? w = none) (ho : w ≠ "object") (ha : around? w = some around)
    (h : Spells s type) : Spells (w.toList ++ '(' :: (s ++ [')'])) (around type) := by
  obtain ⟨ts, htype, hlexes⟩ := h
  refine ⟨_, .around hp ho ha htype, ?_⟩
  intro c hc
  have hopen := Lexes.word hw (by decide) (.mark (c := '(') (by decide))
  have hinner := (hlexes ')' (by decide)).append (.mark hc)
  rw [String.ofList_toList] at hopen
  simpa using hopen.append hinner

theorem Spells.object {s pad : List Char} {fields : List (String × TypeConstraint)} (h : SpellsFields s fields)
    (hp : Reading.IsPad pad) : Spells ("object(\x7b\n".toList ++ (s ++ (pad ++ "\x7d)".toList))) (.object fields) := by
  obtain ⟨ts, hfields, hlexes⟩ := h
  refine ⟨_, .object hfields, ?_⟩
  intro c hc
  have hname : Text.IsName "object".toList := .of_isIdentifier (by decide)
  have hopen := Lexes.word hname (by decide) ((Lexes.mark (c := '(') (by decide)).append
    ((Lexes.mark (c := '\x7b') (by decide)).append (.mark (c := '\n') (by decide))))
  have hclose := (Lexes.mark (c := '\x7d') (by decide)).append
    ((Lexes.mark (c := ')') (by decide)).append (.mark hc))
  have hall := hopen.append (hlexes.append ((Lexes.pad hp).append hclose))
  simpa using hall

theorem SpellsFields.nil : SpellsFields [] [] := ⟨[], .nil, .nil⟩

theorem SpellsFields.feed {s : List Char} {fields : List (String × TypeConstraint)} (h : SpellsFields s fields) :
    SpellsFields ('\n' :: s) fields := by
  obtain ⟨ts, hfields, hlexes⟩ := h
  exact ⟨_, hfields.feed, (Lexes.mark (by decide)).append hlexes⟩

theorem lexes_assigning {name value : List Char} {ts : List Token} (hn : Text.IsName name) (h : Lexes value ts) :
    Lexes (Reading.assigning name value) (.word (String.ofList name) :: .mark '=' :: ts) := by
  have hequals := (Lexes.blank).append ((Lexes.mark (c := '=') (by decide)).append ((Lexes.blank).append h))
  simpa [Reading.assigning] using Lexes.word hn (by decide) hequals

theorem SpellsFields.field {pad name value s : List Char} {type : TypeConstraint}
    {fields : List (String × TypeConstraint)} (hp : Reading.IsPad pad) (hn : Text.IsName name)
    (hv : Spells value type) (h : SpellsFields s fields) :
    SpellsFields (pad ++ (Reading.assigning name value ++ '\n' :: s)) ((String.ofList name, type) :: fields) := by
  obtain ⟨ts, htype, hvalue⟩ := hv
  obtain ⟨us, hfields, hlexes⟩ := h
  refine ⟨_, .field _ htype hfields, ?_⟩
  have hline := (Lexes.pad hp).append ((lexes_assigning hn (hvalue '\n' (by decide))).append hlexes)
  simpa [Reading.assigning] using hline

/-! ## What is written -/

theorem spells_type (depth : Nat) (type : AttributeType) (ht : type.isNamed = true) :
    Spells (type.renderAt depth).toList (ofType type) := by
  induction depth, type using AttributeType.renderAt.induct _ (fun depth fields =>
      fieldsNamed fields = true →
        SpellsFields (AttributeType.renderFields depth fields).toList (ofMembers fields)) with
  | case1 | case2 | case3 | case4 =>
    rw [AttributeType.renderAt, ofType]
    exact .plain (.of_isIdentifier (by decide)) rfl
  | case5 depth element ih =>
    rw [AttributeType.isNamed] at ht
    simpa [AttributeType.renderAt, ofType] using Spells.around isName_list rfl (by decide) rfl (ih ht)
  | case6 depth element ih =>
    rw [AttributeType.isNamed] at ht
    simpa [AttributeType.renderAt, ofType] using Spells.around isName_set rfl (by decide) rfl (ih ht)
  | case7 depth element ih =>
    rw [AttributeType.isNamed] at ht
    simpa [AttributeType.renderAt, ofType] using Spells.around isName_map rfl (by decide) rfl (ih ht)
  | case8 depth fields ih =>
    rw [AttributeType.isNamed] at ht
    simpa [AttributeType.renderAt, ofType] using Spells.object (ih ht) (Reading.isPad_indent depth)
  | case9 depth =>
    rw [AttributeType.renderFields, ofMembers]
    exact .nil
  | case10 depth name type rest iht ih =>
    rename_i hnamed
    simp only [fieldsNamed, Bool.and_eq_true] at hnamed
    obtain ⟨⟨hname, htype⟩, hrest⟩ := hnamed
    have hfield := SpellsFields.field (Reading.isPad_indent (depth + 1)) (.of_isIdentifier hname) (iht htype)
      (ih hrest)
    simpa [AttributeType.renderFields, ofMembers, Reading.assigning] using hfield

theorem spells_optional (required : Bool) {s : List Char} {type : TypeConstraint} (h : Spells s type) :
    Spells ((optionalAround required).1 ++ (s ++ (optionalAround required).2)) (optionalUnless (required = true) type) := by
  have hname : Text.IsName "optional".toList := .of_isIdentifier (by decide)
  cases required with
  | true => simpa [optionalAround, optionalUnless] using h
  | false => simpa [optionalAround, optionalUnless] using Spells.around hname rfl (by decide) rfl h

/-- The type of an object in its holder. -/
def held : Holder → TypeConstraint → TypeConstraint
  | .object, type => type
  | .list, type => list type
  | .set, type => set type

theorem spells_held (holder : Holder) {s pad : List Char} {fields : List (String × TypeConstraint)}
    (h : SpellsFields s fields) (hp : Reading.IsPad pad) :
    Spells (holder.opening.toList ++ '\n' :: (s ++ (pad ++ holder.closing.toList))) (held holder (object fields)) := by
  have hobject := Spells.object h hp
  cases holder with
  | object => simpa [Holder.opening, Holder.closing, held] using hobject
  | list =>
    simpa [Holder.opening, Holder.closing, held] using Spells.around isName_list rfl (by decide) rfl hobject
  | set =>
    simpa [Holder.opening, Holder.closing, held] using Spells.around isName_set rfl (by decide) rfl hobject

theorem isNamed_getD {type : Option AttributeType} (h : type.all AttributeType.isNamed = true) :
    (type.getD .any).isNamed = true := by
  cases type with
  | none => rfl
  | some type => exact h

theorem optionalUnless_not_isOptional (nesting : Nesting) (type : TypeConstraint) :
    optionalUnless ((!nesting.isOptional) = true) type = optionalUnless (nesting.minItems ≠ 0) type := by
  unfold optionalUnless Nesting.isOptional
  by_cases h : nesting.minItems = 0 <;> simp [h]

theorem spells_fields (items : List Item) (hi : Item.areNamed items = true) (depth : Nat) :
    SpellsFields (Text.charsOf (fieldLines depth (fields false items))) (ofItems items) := by
  -- The fields of a nested block stand one level deeper, so the claim is for every depth.
  induction items using fields.induct generalizing depth with
  | case1 =>
    rw [fields, fieldLines, ofItems]
    exact .nil
  | case2 name a rest ih =>
    simp only [Item.areNamed, Bool.and_eq_true] at hi
    obtain ⟨⟨hname, htype⟩, hrest⟩ := hi
    have hvalue := spells_optional a.required (spells_type depth _ (isNamed_getD htype))
    have hfield := SpellsFields.field (Reading.isPad_indent depth) (.of_isIdentifier hname) hvalue (ih hrest depth)
    rw [fields, charsOf_value, ofItems]
    simpa [typeText, Reading.assigning, commentFor, commentLines] using hfield
  | case3 name nesting rest ih =>
    simp only [Item.areNamed, Bool.and_eq_true] at hi
    rw [fields, fieldLines, ofItems]
    exact ih hi.2 depth
  | case4 name nesting description items rest ihi ih =>
    simp only [Item.areNamed, Bool.and_eq_true] at hi
    obtain ⟨⟨hname, hitems⟩, hrest⟩ := hi
    have hobject : ∀ holder : Holder,
        SpellsFields (Text.charsOf (fieldLines depth (.object name (commentFor false description) holder
            (!nesting.isOptional) (fields false items) :: fields false rest)))
          ((name, optionalUnless (nesting.minItems ≠ 0) (held holder (object (ofItems items)))) :: ofItems rest) := by
      intro holder
      have hvalue := spells_optional (!nesting.isOptional)
        (spells_held holder (ihi hitems (depth + 1)) (Reading.isPad_indent depth))
      have hfield := (SpellsFields.field (Reading.isPad_indent depth) (.of_isIdentifier hname) hvalue
        (ih hrest depth).feed).feed
      rw [charsOf_object, ← optionalUnless_not_isOptional]
      simpa [objectText, Reading.assigning, commentFor, commentLines] using hfield
    rw [fields, ofItems]
    cases nesting.mode with
    | single => exact hobject .object
    | list => exact hobject .list
    | set => exact hobject .set
    | map | group | unknown =>
      simp only [Holder.ofMode?]
      rw [fieldLines]
      exact ih hrest depth

end TypeConstraint

end ModuleScaffold.Inputs
