import ModuleScaffold.Inputs
import ModuleScaffold.Proofs.Names
import ModuleScaffold.Proofs.Outline
import ModuleScaffold.Proofs.Reading.Part

/-! # The variables of a module, read back

The names that the variables of a resource declare: its variables, or the fields of its one variable, and inside
each the fields of its type. Main statement: the text of the variables reads back as these names. -/

namespace ModuleScaffold.Inputs

open Reading (Part Reads)

/-- A declared name, with the names of the fields in its type. -/
inductive Declaration where
  | mk (name : String) (inner : List Declaration)

namespace Declaration

def name : Declaration → String
  | mk name _ => name

def inner : Declaration → List Declaration
  | mk _ inner => inner

/-- The names that parts of a file give a value or a type, and the names between the braces of those. -/
def ofParts : List Part → Option (List Declaration)
  | [] => some []
  | .line text :: rest =>
    match Reading.assignment? text, ofParts rest with
    | some (name, _), some ds => some (mk name [] :: ds)
    | _, _ => none
  | .group opening inner :: rest =>
    match Reading.assignment? opening, ofParts inner, ofParts rest with
    | some (name, _), some inside, some ds => some (mk name inside :: ds)
    | _, _, _ => none

/-- The name of a variable, with the fields of its type. -/
def declared? : Part → Option Declaration
  | .line _ => none
  | .group opening inner =>
    match Reading.label? "variable" opening, ofParts inner with
    | some name, some arguments => (arguments.find? (·.name = "type")).map fun type => mk name type.inner
    | _, _ => none

theorem ofParts_append {ps qs : List Part} {ds es : List Declaration} (hp : ofParts ps = some ds)
    (hq : ofParts qs = some es) : ofParts (ps ++ qs) = some (ds ++ es) := by
  induction ps generalizing ds with
  | nil =>
    rw [ofParts] at hp
    cases hp
    exact hq
  | cons p ps ih =>
    cases p with
    | line text =>
      rw [ofParts] at hp
      split at hp
      · next name value rest htext hrest =>
        cases hp
        rw [List.cons_append, ofParts, htext, ih hrest]
        rfl
      · cases hp
    | group opening inner =>
      rw [ofParts] at hp
      split at hp
      · next name value inside rest hopening hinner hrest =>
        cases hp
        rw [List.cons_append, ofParts, hopening, hinner, ih hrest]
        rfl
      · cases hp

end Declaration

/-- What the variables of a resource declare: each of them for a single resource, the fields of the only one for
a collection. -/
def read (mode : Mode) (s : String) : Option (List Declaration) :=
  match (Reading.parts s).bind (·.mapM Declaration.declared?), mode with
  | some ds, .single => some ds
  | some [d], .multiple => some d.inner
  | _, _ => none

/-! ## What is to be read -/

mutual

def typeDeclarations : AttributeType → List Declaration
  | .string | .number | .bool | .any => []
  | .list element | .set element | .map element => typeDeclarations element
  | .object fields => memberDeclarations fields

def memberDeclarations : List (String × AttributeType) → List Declaration
  | [] => []
  | (name, type) :: rest => .mk name (typeDeclarations type) :: memberDeclarations rest

end

def fieldDeclarations : List Field → List Declaration
  | [] => []
  | .value name _ type _ :: rest => .mk name (typeDeclarations (type.getD .any)) :: fieldDeclarations rest
  | .object name _ _ _ inner :: rest => .mk name (fieldDeclarations inner) :: fieldDeclarations rest
  | .skipped _ _ :: rest => fieldDeclarations rest

/-- The declaration of a variable, unless it stands for a block that is left out. -/
def Variable.declaration? : Variable → Option Declaration
  | value name _ _ type _ => some (.mk name (typeDeclarations (type.getD .any)))
  | object name _ _ _ inner => some (.mk name (fieldDeclarations inner))
  | collection name inner => some (.mk name (fieldDeclarations inner))
  | skipped _ _ => none

def Declares (s : List Char) (ds : List Declaration) : Prop :=
  ∃ ps, Reads s ps ∧ Declaration.ofParts ps = some ds

theorem Declares.of_silent {s : List Char} (h : Reads s []) : Declares s [] :=
  ⟨[], h, by rw [Declaration.ofParts]⟩

theorem Declares.append {s t : List Char} {ds es : List Declaration} (hs : Declares s ds) (ht : Declares t es) :
    Declares (s ++ t) (ds ++ es) := by
  obtain ⟨ps, hps, hds⟩ := hs
  obtain ⟨qs, hqs, hes⟩ := ht
  exact ⟨ps ++ qs, hps.append hqs, Declaration.ofParts_append hds hes⟩

/-! ## Types -/

structure IsTypeText (s : List Char) : Prop where
  ne_nil : s ≠ []
  all : ∀ c ∈ s, Text.isIdentifierChar c = true ∨ c ∈ ['(', ')', '\x7b']

namespace IsTypeText

variable {s : List Char}

theorem not_blank (h : IsTypeText s) : ∀ c ∈ s, Text.isBlank c = false := by
  intro c hc
  rcases h.all c hc with hc | hc
  · exact Text.isBlank_of_isIdentifierChar c hc
  · simp only [List.mem_cons, List.not_mem_nil, or_false] at hc
    rcases hc with rfl | rfl | rfl <;> decide

theorem isTrimmed (h : IsTypeText s) : Reading.IsTrimmed s := .of_not_blank h.ne_nil h.not_blank

theorem isLine (h : IsTypeText s) : Text.IsLine s := Reading.isLine_of_not_blank h.not_blank

theorem between {before : List Char} (word : List Char) {after : List Char} (hb : ∀ c ∈ before, Text.isIdentifierChar c = true ∨ c = '(')
    (hne : word ≠ []) (hw : ∀ c ∈ word, Text.isIdentifierChar c = true ∨ c ∈ ['(', ')', '\x7b'])
    (ha : ∀ c ∈ after, c = ')') : IsTypeText (before ++ word ++ after) := by
  constructor
  · simp [hne]
  · intro c hc
    simp only [List.mem_append] at hc
    rcases hc with (hc | hc) | hc
    · rcases hb c hc with hc | rfl
      · exact Or.inl hc
      · exact Or.inr (by decide)
    · exact hw c hc
    · rw [ha c hc]
      exact Or.inr (by decide)

end IsTypeText

theorem Declares.line {pad name value : List Char} (hp : Reading.IsPad pad) (hn : Text.IsName name)
    (hv : Reading.IsTrimmed value) (hl : Text.IsLine value) (hlast : value.getLast? ≠ some '\x7b') :
    Declares (pad ++ Reading.assigning name value ++ ['\n']) [.mk (String.ofList name) []] := by
  refine ⟨[.line (Reading.assigning name value)], ?_, ?_⟩
  · apply Reads.line hp (Reading.isWorded_assigning hn hv.ne_nil hl)
    rw [Reading.getLast?_assigning hv.ne_nil]
    exact hlast
  · rw [Declaration.ofParts, Reading.assignment?_assigning hn hv, Declaration.ofParts]

theorem Declares.group {pad name value inner pad' closing : List Char} {ds : List Declaration}
    (hp : Reading.IsPad pad) (hn : Text.IsName name) (hv : Reading.IsTrimmed value) (hl : Text.IsLine value)
    (hlast : value.getLast? = some '\x7b') (hi : Declares inner ds) (hp' : Reading.IsPad pad')
    (hc : Reading.IsClosing closing) :
    Declares (pad ++ Reading.assigning name value ++ ['\n'] ++ inner ++ (pad' ++ closing ++ ['\n']))
      [.mk (String.ofList name) ds] := by
  obtain ⟨ps, hps, hds⟩ := hi
  refine ⟨[.group (Reading.assigning name value) ps], ?_, ?_⟩
  · apply Reads.group hp (Reading.isWorded_assigning hn hv.ne_nil hl) _ hps hp' hc
    rw [Reading.getLast?_assigning hv.ne_nil]
    exact hlast
  · rw [Declaration.ofParts, Reading.assignment?_assigning hn hv, hds, Declaration.ofParts]

theorem isClosing_brace {after : List Char} (ha : ∀ c ∈ after, c = ')') :
    Reading.IsClosing ('\x7d' :: ')' :: after) := by
  have hall : ∀ c ∈ ')' :: after, c = ')' := by
    intro c hc
    rcases List.mem_cons.mp hc with rfl | hc
    · rfl
    · exact ha c hc
  refine ⟨⟨?_, ?_⟩, rfl⟩
  · intro hm
    rcases List.mem_cons.mp hm with hm | hm
    · cases hm
    · exact absurd (hall _ hm) (by decide)
  · rw [List.getLast?_cons_cons]
    intro hl
    exact absurd (hall _ (List.mem_of_getLast? hl)) (by decide)

/-- What stands before and after a type on its line: words and the parentheses of the types around it. -/
structure IsAround (before after : List Char) : Prop where
  before : ∀ c ∈ before, Text.isIdentifierChar c = true ∨ c = '('
  after : ∀ c ∈ after, c = ')'

theorem IsAround.nil : IsAround [] [] := ⟨by simp, by simp⟩

theorem IsAround.wrap {before after : List Char} (h : IsAround before after) {word : List Char}
    (hw : Text.IsName word) :
    IsAround (before ++ (word ++ ['('])) (')' :: after) := by
  constructor
  · intro c hc
    simp only [List.mem_append, List.mem_singleton] at hc
    rcases hc with hc | hc | rfl
    · exact h.before c hc
    · exact Or.inl (hw.all c hc)
    · exact Or.inr rfl
  · intro c hc
    rcases List.mem_cons.mp hc with rfl | hc
    · rfl
    · exact h.after c hc

theorem isName_list : Text.IsName "list".toList := .of_isIdentifier (by decide)

theorem isName_set : Text.IsName "set".toList := .of_isIdentifier (by decide)

theorem isName_map : Text.IsName "map".toList := .of_isIdentifier (by decide)

def typeText (depth : Nat) (pad name before after : List Char) (type : AttributeType) : List Char :=
  pad ++ Reading.assigning name (before ++ (type.renderAt depth).toList ++ after) ++ ['\n']

theorem IsAround.isTypeText_word {before word after : List Char} (h : IsAround before after) (hw : Text.IsName word) :
    IsTypeText (before ++ word ++ after) :=
  .between _ h.before hw.ne_nil (fun c hc => Or.inl (hw.all c hc)) h.after

/-- The line that opens an object holds nothing else of its type. -/
theorem IsAround.isTypeText_object {before after : List Char} (h : IsAround before after) :
    IsTypeText (before ++ "object(\x7b".toList) := by
  have hobject : Text.IsName "object".toList := .of_isIdentifier (by decide)
  have hopen := IsTypeText.between "object(\x7b".toList h.before (by decide) ?_ IsAround.nil.after
  · rwa [List.append_nil] at hopen
  · intro c hc
    rcases List.mem_append.mp (show c ∈ "object".toList ++ ['(', '\x7b'] from hc) with hc | hc
    · exact Or.inl (hobject.all c hc)
    · refine Or.inr ?_
      simp only [List.mem_cons, List.not_mem_nil, or_false] at hc ⊢
      rcases hc with rfl | rfl
      · exact Or.inl rfl
      · exact Or.inr (Or.inr rfl)

theorem declares_word {depth : Nat} {pad name before after : List Char} {type : AttributeType}
    (hp : Reading.IsPad pad) (hn : Text.IsName name) (h : IsAround before after)
    (hw : Text.IsName (type.renderAt depth).toList) :
    Declares (typeText depth pad name before after type) [.mk (String.ofList name) []] := by
  have hvalue := h.isTypeText_word hw
  apply Declares.line hp hn hvalue.isTrimmed hvalue.isLine
  intro hl
  have hm := List.mem_of_getLast? hl
  simp only [List.mem_append] at hm
  rcases hm with (hm | hm) | hm
  · exact absurd (h.before _ hm) (by decide)
  · exact hw.not_mem '\x7b' (by decide) hm
  · exact absurd (h.after _ hm) (by decide)

theorem declares_object {pad name before after inner pad' : List Char} {ds : List Declaration}
    (hp : Reading.IsPad pad) (hn : Text.IsName name) (h : IsAround before after) (hi : Declares inner ds)
    (hp' : Reading.IsPad pad') :
    Declares (pad ++ Reading.assigning name (before ++ "object(\x7b".toList) ++ ['\n'] ++ inner
      ++ (pad' ++ ('\x7d' :: ')' :: after) ++ ['\n'])) [.mk (String.ofList name) ds] := by
  have hvalue := h.isTypeText_object
  apply Declares.group hp hn hvalue.isTrimmed hvalue.isLine _ hi hp' (isClosing_brace h.after)
  rw [List.getLast?_append]
  rfl

theorem typeText_around (depth : Nat) (pad name before after : List Char) {word : List Char}
    {type element : AttributeType}
    (h : (type.renderAt depth).toList = word ++ '(' :: (element.renderAt depth).toList ++ [')']) :
    typeText depth pad name before after type
      = typeText depth pad name (before ++ (word ++ ['('])) (')' :: after) element := by
  unfold typeText
  rw [h]
  simp

/-- A type that is written for a name declares the fields in it, whatever types stand around it. -/
theorem declares_type (depth : Nat) (type : AttributeType) (ht : type.isNamed = true) :
    ∀ {pad name before after : List Char}, Reading.IsPad pad → Text.IsName name → IsAround before after →
      Declares (typeText depth pad name before after type) [.mk (String.ofList name) (typeDeclarations type)] := by
  -- A type that holds another one only adds to what stands around it, so the claim is for whatever stands there.
  induction depth, type using AttributeType.renderAt.induct _ (fun depth fields =>
      fieldsNamed fields = true →
        Declares (AttributeType.renderFields depth fields).toList (memberDeclarations fields)) with
  | case1 | case2 | case3 | case4 =>
    intro pad name before after hp hn h
    rw [typeDeclarations]
    exact declares_word hp hn h (by rw [AttributeType.renderAt]; exact .of_isIdentifier (by decide))
  | case5 depth element ih =>
    intro pad name before after hp hn h
    rw [AttributeType.isNamed] at ht
    have htext : ((AttributeType.list element).renderAt depth).toList
        = "list".toList ++ '(' :: (element.renderAt depth).toList ++ [')'] := by simp [AttributeType.renderAt]
    rw [typeDeclarations, typeText_around depth pad name before after htext]
    exact ih ht hp hn (h.wrap isName_list)
  | case6 depth element ih =>
    intro pad name before after hp hn h
    rw [AttributeType.isNamed] at ht
    have htext : ((AttributeType.set element).renderAt depth).toList
        = "set".toList ++ '(' :: (element.renderAt depth).toList ++ [')'] := by simp [AttributeType.renderAt]
    rw [typeDeclarations, typeText_around depth pad name before after htext]
    exact ih ht hp hn (h.wrap isName_set)
  | case7 depth element ih =>
    intro pad name before after hp hn h
    rw [AttributeType.isNamed] at ht
    have htext : ((AttributeType.map element).renderAt depth).toList
        = "map".toList ++ '(' :: (element.renderAt depth).toList ++ [')'] := by simp [AttributeType.renderAt]
    rw [typeDeclarations, typeText_around depth pad name before after htext]
    exact ih ht hp hn (h.wrap isName_map)
  | case8 depth fields ih =>
    intro pad name before after hp hn h
    rw [AttributeType.isNamed] at ht
    have hgroup := declares_object hp hn h (ih ht) (Reading.isPad_indent depth)
    rw [typeDeclarations]
    simpa [typeText, AttributeType.renderAt, Reading.assigning] using hgroup
  | case9 depth =>
    rw [AttributeType.renderFields, memberDeclarations]
    exact .of_silent Reads.nil
  | case10 depth name type rest iht ih =>
    rename_i hnamed
    simp only [fieldsNamed, Bool.and_eq_true] at hnamed
    obtain ⟨⟨hname, htype⟩, hrest⟩ := hnamed
    have hfield := iht htype (Reading.isPad_indent (depth + 1)) (.of_isIdentifier hname) .nil
    have hall := hfield.append (ih hrest)
    rw [memberDeclarations]
    simpa [typeText, AttributeType.renderFields, Reading.assigning] using hall

/-! ## Fields -/

theorem isOneLine (s : List Char) : '\n' ∉ onOneLine s ∧ '\r' ∉ onOneLine s := by
  induction s using onOneLine.induct with
  | case1 => simp [onOneLine]
  | case2 rest ih => simpa [onOneLine] using ih
  | case3 c rest hne ih =>
    rw [onOneLine]
    · simp only [List.mem_cons, not_or]
      split
      · exact ⟨⟨by decide, ih.1⟩, by decide, ih.2⟩
      · next hc =>
        simp only [Bool.or_eq_true, decide_eq_true_eq, not_or] at hc
        exact ⟨⟨Ne.symm hc.1, ih.1⟩, Ne.symm hc.2, ih.2⟩
    · exact hne

theorem isLine_comment (description : String) :
    Text.IsLine ('/' :: '/' :: ' ' :: onOneLine (escapeQuotes description.toList)) := by
  obtain ⟨hfeed, hreturn⟩ := isOneLine (escapeQuotes description.toList)
  refine ⟨by simp [hfeed], ?_⟩
  intro hl
  have hm := List.mem_of_getLast? hl
  simp [hreturn] at hm

theorem reads_comment (wanted : Bool) (description pad : String) (hp : Reading.IsPad pad.toList) :
    Reads (Text.charsOf (commentLines pad (commentFor wanted description))) [] := by
  unfold commentFor
  split
  · have hcomment := Reads.comment hp (isLine_comment description)
    simpa [commentLines, commentOf] using hcomment
  · exact Reads.nil

def optionalAround (required : Bool) : List Char × List Char :=
  if required then ([], []) else ("optional(".toList, [')'])

theorem isAround_optional (required : Bool) :
    IsAround (optionalAround required).1 (optionalAround required).2 := by
  have hname : Text.IsName "optional".toList := .of_isIdentifier (by decide)
  cases required
  · exact IsAround.nil.wrap hname
  · exact .nil

theorem declares_value (depth : Nat) {name : String} (type : Option AttributeType) (required : Bool)
    (hn : Text.isIdentifier name.toList = true) (ht : type.all AttributeType.isNamed = true) :
    Declares (typeText depth (AttributeType.indent depth).toList name.toList (optionalAround required).1
        (optionalAround required).2 (type.getD .any)) [.mk name (typeDeclarations (type.getD .any))] := by
  have htype : (type.getD .any).isNamed = true := by
    cases type with
    | none => rfl
    | some type => exact ht
  have h := declares_type depth (type.getD .any) htype (Reading.isPad_indent depth) (.of_isIdentifier hn)
    (isAround_optional required)
  rwa [String.ofList_toList] at h

def objectText (depth : Nat) (name : List Char) (holder : Holder) (around : List Char × List Char)
    (inner : List Char) : List Char :=
  (AttributeType.indent depth).toList ++ Reading.assigning name (around.1 ++ holder.opening.toList) ++ ['\n']
    ++ inner ++ ((AttributeType.indent depth).toList ++ (holder.closing.toList ++ around.2) ++ ['\n'])

theorem declares_objectText (depth : Nat) {name inner : List Char} (holder : Holder)
    (around : List Char × List Char) {ds : List Declaration} (hn : Text.IsName name)
    (h : IsAround around.1 around.2) (hi : Declares inner ds) :
    Declares (objectText depth name holder around inner) [.mk (String.ofList name) ds] := by
  have hpad := Reading.isPad_indent depth
  cases holder with
  | object => simpa [objectText, Holder.opening, Holder.closing] using declares_object hpad hn h hi hpad
  | list =>
    have hlist := declares_object hpad hn (h.wrap isName_list) hi hpad
    simpa [objectText, Holder.opening, Holder.closing] using hlist
  | set =>
    have hset := declares_object hpad hn (h.wrap isName_set) hi hpad
    simpa [objectText, Holder.opening, Holder.closing] using hset

theorem charsOf_value (depth : Nat) (name : String) (comment : Option String) (type : Option AttributeType)
    (required : Bool) (rest : List Field) :
    Text.charsOf (fieldLines depth (.value name comment type required :: rest))
      = Text.charsOf (commentLines (AttributeType.indent depth) comment)
        ++ (typeText depth (AttributeType.indent depth).toList name.toList (optionalAround required).1
          (optionalAround required).2 (type.getD .any) ++ Text.charsOf (fieldLines depth rest)) := by
  rw [fieldLines]
  cases required <;>
    simp [typeText, optionalAround, Reading.assigning, AttributeType.renderOptional]

theorem charsOf_object (depth : Nat) (name : String) (comment : Option String) (holder : Holder)
    (required : Bool) (inner rest : List Field) :
    Text.charsOf (fieldLines depth (.object name comment holder required inner :: rest))
      = ['\n'] ++ (Text.charsOf (commentLines (AttributeType.indent depth) comment)
        ++ (objectText depth name.toList holder (optionalAround required)
            (Text.charsOf (fieldLines (depth + 1) inner))
          ++ (['\n'] ++ Text.charsOf (fieldLines depth rest)))) := by
  rw [fieldLines]
  cases required <;> simp [objectText, optionalAround, Reading.assigning]

theorem declares_fields (comments : Bool) (items : List Item) (hi : Item.areNamed items = true) (depth : Nat) :
    Declares (Text.charsOf (fieldLines depth (fields comments items)))
      (fieldDeclarations (fields comments items)) := by
  induction items using fields.induct generalizing depth with
  | case1 =>
    rw [fields, fieldLines, fieldDeclarations]
    exact .of_silent Reads.nil
  | case2 name a rest ih =>
    simp only [Item.areNamed, Bool.and_eq_true] at hi
    obtain ⟨⟨hname, htype⟩, hrest⟩ := hi
    have hcomment := reads_comment comments a.description (AttributeType.indent depth)
      (Reading.isPad_indent depth)
    rw [fields, charsOf_value, fieldDeclarations]
    exact (Declares.of_silent hcomment).append ((declares_value depth a.type a.required hname htype).append (ih hrest depth))
  | case3 name nesting rest ih =>
    simp only [Item.areNamed, Bool.and_eq_true] at hi
    rw [fields, fieldLines, fieldDeclarations]
    exact ih hi.2 depth
  | case4 name nesting description items rest ihi ih =>
    simp only [Item.areNamed, Bool.and_eq_true] at hi
    obtain ⟨⟨hname, hitems⟩, hrest⟩ := hi
    rw [fields]
    split
    · next holder _ =>
      have hcomment := reads_comment comments description (AttributeType.indent depth)
        (Reading.isPad_indent depth)
      have hobject := declares_objectText depth holder _ (.of_isIdentifier hname)
        (isAround_optional (!nesting.isOptional)) (ihi hitems (depth + 1))
      rw [String.ofList_toList] at hobject
      rw [charsOf_object, fieldDeclarations]
      exact (Declares.of_silent Reads.blank).append ((Declares.of_silent hcomment).append
        (hobject.append ((Declares.of_silent Reads.blank).append (ih hrest depth))))
    · rw [fieldLines, fieldDeclarations]
      exact ih hrest depth

/-! ## Variables -/

theorem escapeChar_ne_feed (c : Char) : '\n' ∉ Hcl.Quoted.escapeChar c := by
  have hdigit : ∀ n < 16, '\n' ≠ Hcl.Quoted.hexDigit n := by decide
  have hbound : c < ' ' → c.toNat < 32 := fun h => h
  unfold Hcl.Quoted.escapeChar
  repeat' split
  any_goals decide
  · next hlt =>
    have hc := hbound hlt
    have hhigh := hdigit (c.toNat / 16) (by omega)
    have hlow := hdigit (c.toNat % 16) (by omega)
    simp [hhigh, hlow]
  · next hfeed _ _ _ =>
    simpa using Ne.symm hfeed

theorem getLast?_encode (s : List Char) : (Hcl.Quoted.encode s).getLast? = some '"' := by
  simp [Hcl.Quoted.encode, List.getLast?_cons]

theorem isTrimmed_encode (s : List Char) : Reading.IsTrimmed (Hcl.Quoted.encode s) :=
  .of_ends rfl (getLast?_encode s) (by decide) (by decide)

theorem isLine_encode (s : List Char) : Text.IsLine (Hcl.Quoted.encode s) := by
  constructor
  · simp only [Hcl.Quoted.encode, List.cons_append, List.mem_cons, List.mem_append, List.mem_flatMap, not_or,
      List.not_mem_nil, not_false_iff, not_exists, not_and]
    exact ⟨by decide, fun c _ => escapeChar_ne_feed c, by decide, trivial⟩
  · rw [getLast?_encode]
    decide

theorem declares_description (description : Option String) :
    Declares (Text.charsOf (descriptionLines description)) (description.toList.map fun _ => .mk "description" []) := by
  cases description with
  | none => exact .of_silent Reads.nil
  | some description =>
    have h := Declares.line Reading.isPad_two (.of_isIdentifier (by decide) : Text.IsName "description".toList)
      (isTrimmed_encode (onOneLine description.toList)) (isLine_encode _) (by rw [getLast?_encode]; decide)
    simpa [descriptionLines, Reading.assigning] using h

def defaultDeclarations (nullable : Bool) : List Declaration := if nullable then [.mk "default" []] else []

theorem declares_default (nullable : Bool) :
    Declares (Text.charsOf (defaultLines nullable)) (defaultDeclarations nullable) := by
  cases nullable with
  | false => exact .of_silent Reads.nil
  | true =>
    have hnull : Text.IsName "null".toList := .of_isIdentifier (by decide)
    have hpath := Reading.IsPath.of_isName hnull
    exact Declares.line Reading.isPad_two (.of_isIdentifier (by decide) : Text.IsName "default".toList) hpath.isTrimmed
      hpath.isLine (by decide)

def variableText (name inner : List Char) : List Char :=
  [] ++ Reading.blockOpening "variable" name [' ', '\x7b'] ++ ['\n'] ++ inner ++ ([] ++ ['\x7d'] ++ ['\n']) ++ ['\n']

/-- A text whose parts are variables that declare these names. -/
abbrev Holds (s : List Char) (ds : List Declaration) : Prop := Reading.Yields Declaration.declared? s ds

theorem holds_variableText {name inner : List Char} {ds : List Declaration} {d : Declaration}
    (hn : '\n' ∉ name) (hq : '"' ∉ name) (hi : Declares inner ds)
    (hd : ds.find? (·.name = "type") = some d) :
    Holds (variableText name inner) [.mk (String.ofList name) d.inner] := by
  obtain ⟨ps, hps, hds⟩ := hi
  have hopening := Reading.isWorded_blockOpening "variable" [' ', '\x7b'] (.of_isIdentifier (by decide)) hn (by decide) ⟨by decide, by decide⟩
  have hgroup := Reads.group .nil hopening (Reading.getLast?_blockOpening "variable" name (by decide)) hps .nil
    .brace
  refine ⟨_, hgroup.append Reads.blank, ?_⟩
  rw [List.append_nil, List.mapM_cons, Declaration.declared?,
    Reading.label?_blockOpening "variable" name _ hq, hds]
  simp [hd]

theorem toList_header (name : String) :
    (header name).toList = "variable".toList ++ (" \"" ++ name ++ "\" \x7b").toList := by
  simp [header]

theorem charsOf_variable_value (name : String) (comment description : Option String)
    (type : Option AttributeType) (nullable : Bool) :
    Text.charsOf (Variable.value name comment description type nullable).lines
      = Text.charsOf (commentLines "" comment) ++ variableText name.toList
          (Text.charsOf (descriptionLines description)
            ++ (typeText 1 [' ', ' '] "type".toList [] [] (type.getD .any) ++ Text.charsOf (defaultLines nullable))) := by
  simp [Variable.lines, variableText, typeText, header, Reading.assigning, Reading.blockOpening,
    AttributeType.renderOptional]

theorem charsOf_variable_object (name : String) (comment : Option String) (holder : Holder) (nullable : Bool)
    (inner : List Field) :
    Text.charsOf (Variable.object name comment holder nullable inner).lines
      = Text.charsOf (commentLines "" comment) ++ variableText name.toList
          (objectText 1 "type".toList holder ([], []) (Text.charsOf (fieldLines 2 inner))
            ++ Text.charsOf (defaultLines nullable)) := by
  have hpad : (AttributeType.indent 1).toList = [' ', ' '] := String.toList_ofList
  simp [Variable.lines, variableText, objectText, header, Reading.assigning, Reading.blockOpening, hpad]

theorem isName_type : Text.IsName "type".toList := .of_isIdentifier (by decide)

theorem holds_value {name : String} {comment : Option String} (description : Option String)
    {type : Option AttributeType} (nullable : Bool) (hn : Text.isIdentifier name.toList = true)
    (hc : Reads (Text.charsOf (commentLines "" comment)) []) (ht : type.all AttributeType.isNamed = true) :
    Holds (Text.charsOf (Variable.value name comment description type nullable).lines)
      [.mk name (typeDeclarations (type.getD .any))] := by
  have hname : Text.IsName name.toList := .of_isIdentifier hn
  have htype := declares_type 1 (type.getD .any) (by cases type with | none => rfl | some type => exact ht)
    Reading.isPad_two isName_type .nil
  have harguments := (declares_description description).append (htype.append (declares_default nullable))
  have hvariable := holds_variableText (hname.not_mem '\n' (by decide)) (hname.not_mem '"' (by decide)) harguments
    (d := .mk "type" (typeDeclarations (type.getD .any)))
    (by cases description <;> simp [Declaration.name])
  rw [charsOf_variable_value]
  simpa [Declaration.inner] using (Reading.Yields.of_silent hc).append hvariable

theorem holds_object {name : String} (comment : Option String) (holder : Holder) (nullable : Bool)
    {inner : List Field} (hn : '\n' ∉ name.toList) (hq : '"' ∉ name.toList)
    (hc : Reads (Text.charsOf (commentLines "" comment)) [])
    (hi : Declares (Text.charsOf (fieldLines 2 inner)) (fieldDeclarations inner)) :
    Holds (Text.charsOf (Variable.object name comment holder nullable inner).lines)
      [.mk name (fieldDeclarations inner)] := by
  have htype := declares_objectText 1 holder ([], []) isName_type .nil hi
  have hvariable := holds_variableText hn hq (htype.append (declares_default nullable))
    (d := .mk "type" (fieldDeclarations inner)) (by simp [Declaration.name])
  rw [charsOf_variable_object]
  simpa [Declaration.inner] using (Reading.Yields.of_silent hc).append hvariable

theorem holds_variableOf (comments : Bool) (i : Item) (hi : Item.areNamed [i] = true) :
    Holds (Text.charsOf (variableOf comments i).lines) (variableOf comments i).declaration?.toList := by
  match i with
  | .argument name a =>
    simp only [Item.areNamed, Bool.and_eq_true] at hi
    exact holds_value _ _ hi.1.1 (reads_comment _ _ "" .nil) hi.1.2
  | .block name _ none => exact .of_silent Reads.nil
  | .block name nesting (some (description, items)) =>
    simp only [Item.areNamed, Bool.and_eq_true] at hi
    have hname : Text.IsName name.toList := .of_isIdentifier hi.1.1
    rw [variableOf]
    split
    · exact holds_object _ _ _ (hname.not_mem '\n' (by decide)) (hname.not_mem '"' (by decide))
        (reads_comment _ _ "" .nil) (declares_fields comments items hi.1.2 2)
    · exact .of_silent Reads.nil

theorem holds_variables (comments : Bool) (items : List Item) (hi : Item.areNamed items = true) :
    Holds (Text.charsOf ((items.map (variableOf comments)).flatMap Variable.lines))
      ((items.map (variableOf comments)).filterMap Variable.declaration?) := by
  induction items with
  | nil => exact .of_silent Reads.nil
  | cons i rest ih =>
    rw [Item.areNamed_cons, Bool.and_eq_true] at hi
    have hall := (holds_variableOf comments i hi.1).append (ih hi.2)
    rw [List.map_cons, List.flatMap_cons, Text.charsOf_append, List.filterMap_cons]
    cases hd : (variableOf comments i).declaration? <;> rw [hd] at hall <;> exact hall

/-- What the variables of a block are to be read back as. -/
def declarations (comments : Bool) (block : Block) : Mode → List Declaration
  | .single => (block.items.map (variableOf comments)).filterMap Variable.declaration?
  | .multiple => fieldDeclarations (fields comments block.items)

/-- The text of the variables of a resource reads back as what they declare. -/
theorem read_resourceLines (comments : Bool) (block : Block) (mode : Mode) (variableName : String)
    (hb : block.isNamed = true) (hn : '\n' ∉ variableName.toList) (hq : '"' ∉ variableName.toList) :
    read mode (Text.ofLines (resourceLines comments block mode variableName))
      = some (declarations comments block mode) := by
  have hitems : Item.areNamed block.items = true := by rw [areNamed_items]; exact hb
  unfold read
  cases mode with
  | single =>
    obtain ⟨ps, hps, hds⟩ := holds_variables comments block.items hitems
    rw [Reads.parts (by rw [Text.toList_ofLines]; exact hps), Option.bind_some, hds]
    rfl
  | multiple =>
    obtain ⟨ps, hps, hds⟩ := holds_object none .list true hn hq Reads.nil
      (declares_fields comments block.items hitems 2)
    have hlines : resourceLines comments block .multiple variableName
        = (Variable.object variableName none .list true (fields comments block.items)).lines := by
      simp [resourceLines, variablesOf, Variable.lines, commentLines]
    rw [Reads.parts (by rw [Text.toList_ofLines, hlines]; exact hps), Option.bind_some, hds]
    rfl

end ModuleScaffold.Inputs
