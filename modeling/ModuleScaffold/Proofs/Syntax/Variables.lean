import ModuleScaffold.Proofs.Reading.Inputs
import ModuleScaffold.Proofs.Syntax.Lines
import ModuleScaffold.Proofs.Syntax.Quoted
import ModuleScaffold.Proofs.Writable

/-! # Variables that parse

A type that holds others is a call, and an object in it goes over several lines. Main statement: the text of the
variables of a resource consists of blocks and comments of the configuration language, and needs as many brackets as
the deepest type in it. -/

namespace ModuleScaffold

mutual

/-- The brackets that stand in one another in the text of a type. -/
def AttributeType.brackets : AttributeType → Nat
  | .string | .number | .bool | .any => 0
  | .list element | .set element | .map element => element.brackets + 1
  | .object fields => fieldsBrackets fields + 2

def fieldsBrackets : List (String × AttributeType) → Nat
  | [] => 0
  | (_, type) :: rest => max type.brackets (fieldsBrackets rest)

end

namespace Inputs

open Hcl.Syntax

/-! ## Types -/

/-- What stands around a type makes an expression of it; what stands there takes some brackets. -/
structure Surrounds (count : Nat) (before after : List Char) : Prop where
  isAround : IsAround before after
  reads : ∀ {need : Nat} {s : List Char}, IsExpression need s → IsExpression (need + count) (before ++ s ++ after)

theorem Surrounds.nil : Surrounds 0 [] [] := ⟨.nil, fun h => by simpa using h⟩

theorem Surrounds.wrap {count : Nat} {before after : List Char} (h : Surrounds count before after) (word : List Char)
    (hw : Text.isIdentifier word = true) :
    Surrounds (count + 1) (before ++ (word ++ ['('])) (')' :: after) := by
  refine ⟨h.isAround.wrap (.of_isIdentifier hw), fun {need s} hs => ?_⟩
  have hcall := h.reads (isTerm_call word hw hs.last).isExpression
  rw [← Nat.add_assoc, Nat.add_right_comm]
  simpa using hcall

section

variable {R : Sequence} {count need : Nat} {pad name before after : List Char}

theorem spells_word (hR : IsSequence R) {word : List Char} (hp : Reading.IsPad pad) (hn : Text.isIdentifier name = true)
    (hfor : name ≠ ['f', 'o', 'r']) (h : Surrounds count before after) (hw : Text.isIdentifier word = true) :
    Spells R count [name] (pad ++ Reading.assigning name (before ++ word ++ after) ++ ['\n']) := by
  have hword := h.reads (isOperand_name hw).isExpression
  rw [Nat.zero_add] at hword
  exact .attribute hR hp hn hfor hword (h.isAround.isTypeText_word (.of_isIdentifier hw)).isLine

/-- An object goes on up to the line of its closing brace. -/
theorem spells_object (hR : IsSequence R) {fields pad' : List Char} {new : List (List Char)}
    (hp : Reading.IsPad pad) (hn : Text.isIdentifier name = true) (hfor : name ≠ ['f', 'o', 'r'])
    (h : Surrounds count before after) (hi : Spells MembersRead need new fields) (hnew : new.Nodup)
    (hp' : Reading.IsPad pad') :
    Spells R (need + 2 + count) [name] (pad ++ Reading.assigning name (before ++ "object(\x7b".toList) ++ ['\n']
      ++ fields ++ (pad' ++ ('\x7d' :: ')' :: after) ++ ['\n'])) := by
  have hopening := h.isAround.isTypeText_object
  have hworded := Reading.isWorded_assigning (.of_isIdentifier hn) hopening.ne_nil hopening.isLine
  have hclosing := isClosing_brace h.isAround.after
  refine .group hR hp hworded.isLine (hworded.not_blank []) hi hp' hclosing.isLine rfl fun t ht => ?_
  have hvalue := hR.assigns hn hfor (h.reads (ht.isTerm_object hnew hp').isExpression)
  simpa [Reading.assigning] using hvalue

end

/-- A type that is written for a name can be read, whatever types stand around it. -/
def SpellsType (depth : Nat) (type : AttributeType) : Prop :=
  ∀ {R : Sequence} {count : Nat} {pad name before after : List Char}, IsSequence R → Reading.IsPad pad →
    Text.isIdentifier name = true → name ≠ ['f', 'o', 'r'] → Surrounds count before after →
    Spells R (type.brackets + count) [name] (typeText depth pad name before after type)

theorem SpellsType.word {depth : Nat} {type : AttributeType} (hw : Text.isIdentifier (type.renderAt depth).toList = true)
    (hb : type.brackets = 0) : SpellsType depth type := by
  intro R count pad name before after hR hp hn hfor h
  rw [hb, Nat.zero_add]
  exact spells_word hR hp hn hfor h hw

/-- A type that holds another one only adds to what stands around it. -/
theorem SpellsType.wrap {depth : Nat} {type element : AttributeType} (h : SpellsType depth element) (word : List Char)
    (hw : Text.isIdentifier word = true)
    (ht : (type.renderAt depth).toList = word ++ '(' :: (element.renderAt depth).toList ++ [')'])
    (hb : type.brackets = element.brackets + 1) : SpellsType depth type := by
  intro R count pad name before after hR hp hn hfor hs
  rw [typeText_around depth pad name before after ht, hb, Nat.add_right_comm]
  exact h hR hp hn hfor (hs.wrap word hw)

theorem spells_type (depth : Nat) (type : AttributeType) (ht : type.isWritable = true) : SpellsType depth type := by
  induction depth, type using AttributeType.renderAt.induct _ (fun depth fields =>
      fieldsWritable fields = true → Spells MembersRead (fieldsBrackets fields) (fields.map fun e => e.1.toList)
        (AttributeType.renderFields depth fields).toList) with
  | case1 | case2 | case3 | case4 => exact SpellsType.word (by rw [AttributeType.renderAt]; decide) rfl
  | case5 depth element ih =>
    rw [AttributeType.isWritable] at ht
    exact SpellsType.wrap (ih ht) "list".toList (by decide) (by simp [AttributeType.renderAt]) rfl
  | case6 depth element ih =>
    rw [AttributeType.isWritable] at ht
    exact SpellsType.wrap (ih ht) "set".toList (by decide) (by simp [AttributeType.renderAt]) rfl
  | case7 depth element ih =>
    rw [AttributeType.isWritable] at ht
    exact SpellsType.wrap (ih ht) "map".toList (by decide) (by simp [AttributeType.renderAt]) rfl
  | case8 depth fields ih =>
    intro R count pad name before after hR hp hn hfor h
    rw [AttributeType.isWritable, Bool.and_eq_true, decide_eq_true_eq] at ht
    have hnames : (fields.map fun e => e.1.toList).Nodup := by
      have hdistinct := Text.nodup_toList ht.1
      rwa [List.map_map] at hdistinct
    have hobject := spells_object hR hp hn hfor h (ih ht.2) hnames (Reading.isPad_indent depth)
    rw [AttributeType.brackets]
    simpa [typeText, AttributeType.renderAt, Reading.assigning] using hobject
  | case9 depth =>
    rw [AttributeType.renderFields, fieldsBrackets]
    exact .nil isSequence_members
  | case10 depth name type rest iht ih =>
    rename_i hfields
    simp only [fieldsWritable, Bool.and_eq_true] at hfields
    obtain ⟨⟨hname, htype⟩, hrest⟩ := hfields
    have hfield := iht htype isSequence_members (Reading.isPad_indent (depth + 1))
      (Text.isIdentifier_of_isFree hname) (Text.ne_for_of_isFree hname) .nil
    have hall := hfield.append (ih hrest)
    rw [fieldsBrackets]
    simpa [typeText, AttributeType.renderFields, Reading.assigning] using hall

/-! ## Fields -/

theorem spells_comment {R : Sequence} (hR : IsSequence R) (wanted : Bool) (description pad : String)
    (hp : Reading.IsPad pad.toList) : Spells R 0 [] (Text.charsOf (commentLines pad (commentFor wanted description))) := by
  unfold commentFor
  split
  · obtain ⟨hfeed, hreturn⟩ := isOneLine (escapeQuotes description.toList)
    have hcomment := Spells.comment hR (' ' :: onOneLine (escapeQuotes description.toList)) hp
      (by simpa using hfeed) (by simpa using hreturn)
    simpa [commentLines, commentOf] using hcomment
  · exact .nil hR

/-- The bracket around a type that may be left out. -/
def optionalBrackets (required : Bool) : Nat := if required then 0 else 1

theorem surrounds_optional (required : Bool) :
    Surrounds (optionalBrackets required) (optionalAround required).1 (optionalAround required).2 := by
  cases required with
  | true => exact .nil
  | false => exact Surrounds.nil.wrap "optional".toList (by decide)

/-- The brackets around the fields of a held object. -/
def Holder.brackets : Holder → Nat
  | object => 2
  | list | set => 3

theorem spells_objectText {R : Sequence} {count need : Nat} (hR : IsSequence R) (depth : Nat) {name fields : List Char}
    {new : List (List Char)} (holder : Holder) (around : List Char × List Char) (hn : Text.isIdentifier name = true)
    (hfor : name ≠ ['f', 'o', 'r']) (h : Surrounds count around.1 around.2) (hi : Spells MembersRead need new fields)
    (hnew : new.Nodup) :
    Spells R (need + holder.brackets + count) [name] (objectText depth name holder around fields) := by
  have hpad := Reading.isPad_indent depth
  have hheld : need + 2 + (count + 1) = need + 3 + count := by omega
  cases holder with
  | object =>
    have hobject := spells_object hR hpad hn hfor h hi hnew hpad
    simpa [objectText, Holder.opening, Holder.closing, Holder.brackets] using hobject
  | list =>
    have hlist := spells_object hR hpad hn hfor (h.wrap "list".toList (by decide)) hi hnew hpad
    rw [hheld] at hlist
    simpa [objectText, Holder.opening, Holder.closing, Holder.brackets] using hlist
  | set =>
    have hset := spells_object hR hpad hn hfor (h.wrap "set".toList (by decide)) hi hnew hpad
    rw [hheld] at hset
    simpa [objectText, Holder.opening, Holder.closing, Holder.brackets] using hset

def fieldNames : List Field → List (List Char)
  | [] => []
  | .value name _ _ _ :: rest => name.toList :: fieldNames rest
  | .object name _ _ _ _ :: rest => name.toList :: fieldNames rest
  | .skipped _ _ :: rest => fieldNames rest

theorem fieldNames_sublist (comments : Bool) (items : List Item) :
    (fieldNames (fields comments items)).Sublist ((items.map Item.name).map String.toList) := by
  induction items using fields.induct with
  | case1 =>
    rw [fields]
    exact .refl _
  | case2 name a rest ih =>
    rw [fields]
    exact ih.cons_cons _
  | case3 name nesting rest ih =>
    rw [fields]
    exact ih.cons _
  | case4 name nesting description items rest _ ih =>
    rw [fields]
    split
    · exact ih.cons_cons _
    · exact ih.cons _

theorem nodup_fieldNames (comments : Bool) {items : List Item} (h : (items.map Item.name).Nodup) :
    (fieldNames (fields comments items)).Nodup :=
  (Text.nodup_toList h).sublist (fieldNames_sublist comments items)

theorem isWritable_getD {type : Option AttributeType} (h : type.all AttributeType.isWritable = true) :
    (type.getD .any).isWritable = true := by
  cases type with
  | none => rfl
  | some type => exact h

/-- The brackets that stand in one another in the text of fields. -/
def brackets : List Field → Nat
  | [] => 0
  | .value _ _ type required :: rest => max ((type.getD .any).brackets + optionalBrackets required) (brackets rest)
  | .object _ _ holder required inner :: rest =>
    max (brackets inner + holder.brackets + optionalBrackets required) (brackets rest)
  | .skipped _ _ :: rest => brackets rest

theorem spells_fields (comments : Bool) (items : List Item) (hi : Item.areWritable items = true) (depth : Nat) :
    Spells MembersRead (brackets (fields comments items)) (fieldNames (fields comments items))
      (Text.charsOf (fieldLines depth (fields comments items))) := by
  have hR := isSequence_members
  -- The fields of a nested block stand deeper and have their own names, so the claim is for every depth.
  induction items using fields.induct generalizing depth with
  | case1 =>
    rw [fields, fieldLines, brackets]
    exact .nil hR
  | case2 name a rest ih =>
    simp only [Item.areWritable, Bool.and_eq_true] at hi
    obtain ⟨⟨hname, htype⟩, hrest⟩ := hi
    have hpad := Reading.isPad_indent depth
    have hfield := spells_type depth _ (isWritable_getD htype) hR hpad (Text.isIdentifier_of_isFree hname)
      (Text.ne_for_of_isFree hname) (surrounds_optional a.required)
    have hcomment := spells_comment hR comments a.description (AttributeType.indent depth) hpad
    have hall := hcomment.append (hfield.append (ih hrest depth))
    rw [fields, charsOf_value, brackets, fieldNames]
    simpa using hall
  | case3 name nesting rest ih =>
    simp only [Item.areWritable, Bool.and_eq_true] at hi
    rw [fields, fieldLines, brackets]
    exact ih hi.2 depth
  | case4 name nesting description items rest ihi ih =>
    simp only [Item.areWritable, Bool.and_eq_true, decide_eq_true_eq] at hi
    obtain ⟨⟨hname, hnames, hitems⟩, hrest⟩ := hi
    have hmore := ih hrest depth
    rw [fields]
    split
    · next holder _ =>
      have hcomment := spells_comment hR comments description (AttributeType.indent depth) (Reading.isPad_indent depth)
      have hobject := spells_objectText hR depth holder _ (Text.isIdentifier_of_isFree hname)
        (Text.ne_for_of_isFree hname) (surrounds_optional (!nesting.isOptional)) (ihi hitems (depth + 1))
        (nodup_fieldNames comments hnames)
      have hblank := Spells.blank hR
      have hall := hblank.append (hcomment.append (hobject.append (hblank.append hmore)))
      rw [charsOf_object, brackets, fieldNames]
      simpa using hall
    · rw [fieldLines, brackets]
      exact hmore

/-! ## Variables -/

theorem spells_description (description : Option String)
    (h : ∀ text ∈ description, IsLiteral (Hcl.Quoted.encode (onOneLine text.toList))) :
    Spells BodyReads 0 (description.toList.map fun _ => "description".toList)
      (Text.charsOf (descriptionLines description)) := by
  cases description with
  | none => exact .nil isSequence_body
  | some description =>
    have hline := Spells.attribute isSequence_body Reading.isPad_two
      (by decide : Text.isIdentifier "description".toList = true) (by decide)
      (h description rfl).isTerm.isExpression (isLine_encode _)
    simpa [descriptionLines, Reading.assigning] using hline

theorem spells_default (nullable : Bool) :
    Spells BodyReads 0 (if nullable then ["default".toList] else []) (Text.charsOf (defaultLines nullable)) := by
  cases nullable with
  | false => exact .nil isSequence_body
  | true =>
    have hnull := isOperand_name (by decide : Text.isIdentifier "null".toList = true)
    exact .attribute isSequence_body Reading.isPad_two (by decide : Text.isIdentifier "default".toList = true)
      (by decide) hnull.isExpression ⟨by decide, by decide⟩

/-- The brackets that stand in one another in the text of a variable. -/
def Variable.brackets : Variable → Nat
  | value _ _ _ type _ => (type.getD .any).brackets + 1
  | object _ _ holder _ inner => Inputs.brackets inner + holder.brackets + 1
  | collection _ inner => Inputs.brackets inner + Holder.list.brackets + 1
  | skipped _ _ => 0

theorem spells_variableText {need : Nat} {name inner : List Char} {new : List (List Char)} (hn : Text.IsName name)
    (hi : Spells BodyReads need new inner) (hnew : new.Nodup) :
    Spells BodyReads (need + 1) [] (variableText name inner) := by
  have hblock := Spells.block "variable".toList [name] (by decide) (by simpa using hn) .nil hi hnew .nil
  have hall := hblock.append (Spells.blank isSequence_body)
  simpa [variableText, Reading.blockOpening, labelText] using hall

theorem spells_value (comments : Bool) (name description : String) {type : Option AttributeType}
    (nullable : Bool) (hn : Text.isFree name = true) (ht : type.all AttributeType.isWritable = true)
    (hd : description ≠ "" → IsLiteral (Hcl.Quoted.encode (onOneLine description.toList))) :
    Spells BodyReads ((type.getD .any).brackets + 1) []
      (Text.charsOf (Variable.value name (commentFor comments description)
        (if description = "" then none else some description) type nullable).lines) := by
  have hcomment := spells_comment isSequence_body comments description "" .nil
  have htype := spells_type 1 _ (isWritable_getD ht) isSequence_body Reading.isPad_two
    (by decide : Text.isIdentifier "type".toList = true) (by decide) .nil
  have hdescription := spells_description (if description = "" then none else some description)
    (by
      intro text ht
      split at ht
      · cases ht
      · next hne =>
        cases ht
        exact hd hne)
  have hvariable := spells_variableText (.of_isIdentifier (Text.isIdentifier_of_isFree hn))
    (hdescription.append (htype.append (spells_default nullable)))
    (by split <;> cases nullable <;> simp)
  have hall := hcomment.append hvariable
  rw [charsOf_variable_value]
  simpa using hall

/-- A variable of an object type, with the comment on its block or without. -/
theorem spells_object_variable {need : Nat} {name : String} {comment : Option String} (holder : Holder) (nullable : Bool)
    {inside : List Field} (hn : Text.IsName name.toList)
    (hc : Spells BodyReads 0 [] (Text.charsOf (commentLines "" comment)))
    (hi : Spells MembersRead need (fieldNames inside) (Text.charsOf (fieldLines 2 inside)))
    (hnew : (fieldNames inside).Nodup) :
    Spells BodyReads (need + holder.brackets + 1) []
      (Text.charsOf (Variable.object name comment holder nullable inside).lines) := by
  have htype := spells_objectText isSequence_body 1 holder ([], []) (by decide : Text.isIdentifier "type".toList = true)
    (by decide) .nil hi hnew
  have hvariable := spells_variableText hn (htype.append (spells_default nullable)) (by cases nullable <;> decide)
  have hall := hc.append hvariable
  rw [charsOf_variable_object]
  simpa using hall

/-- What an attribute is described with, in one line and between quotes, is read as a literal. -/
def DescriptionRead (a : Attribute) : Prop := IsLiteral (Hcl.Quoted.encode (onOneLine a.description.toList))

theorem eq_cons_of_onOneLine {c : Char} {s t : List Char} (h : onOneLine s = c :: t) (hc : c ≠ ' ') :
    ∃ more, s = c :: more ∧ t = onOneLine more := by
  unfold onOneLine at h
  split at h
  · cases h
  · cases h
    exact absurd rfl hc
  · next d rest _ =>
    obtain ⟨rfl, rfl⟩ := List.cons.inj h
    split at hc
    · exact absurd rfl hc
    · next hd => exact ⟨rest, by rw [if_neg hd], rfl⟩

theorem isUncrossed_onOneLine {s : List Char} (h : Hcl.Quoted.isUncrossed s = true) :
    Hcl.Quoted.isUncrossed (onOneLine s) = true := by
  induction s using onOneLine.induct with
  | case1 => rfl
  | case2 rest ih =>
    rw [onOneLine, Hcl.Quoted.isUncrossed_cons]
    exact ⟨fun _ _ _ hc => (by cases hc), ih (Hcl.Quoted.isUncrossed_tail (Hcl.Quoted.isUncrossed_tail h))⟩
  | case3 c rest hne ih =>
    have hcross := ((Hcl.Quoted.isUncrossed_cons c rest).mp h).1
    rw [onOneLine, Hcl.Quoted.isUncrossed_cons]
    · refine ⟨fun d more hline hc hd => ?_, ih (Hcl.Quoted.isUncrossed_tail h)⟩
      split at hc
      · cases hc
      · next hkept =>
        rw [if_neg hkept]
        obtain ⟨behind, rfl, hbehind⟩ := eq_cons_of_onOneLine hline (by rintro rfl; cases hd)
        obtain ⟨last, rfl, -⟩ := eq_cons_of_onOneLine hbehind.symm (by decide)
        exact hcross d last rfl hc hd
    · exact hne

/-- A description is read as a literal if no marker in it is crossed. -/
theorem descriptionRead_of_isUncrossed {a : Attribute} (h : Hcl.Quoted.isUncrossed a.description.toList = true) :
    DescriptionRead a :=
  Hcl.Quoted.isLiteral_encode (isUncrossed_onOneLine h)

theorem spells_variableOf (comments : Bool) (i : Item) (hi : Item.areWritable [i] = true)
    (hd : ∀ name a, i = .argument name a → DescriptionRead a) :
    Spells BodyReads (variableOf comments i).brackets [] (Text.charsOf (variableOf comments i).lines) := by
  match i with
  | .argument name a =>
    simp only [Item.areWritable, Bool.and_eq_true] at hi
    exact spells_value comments name a.description a.optional hi.1.1 hi.1.2 fun _ => hd name a rfl
  | .block name _ none => exact .nil isSequence_body
  | .block name nesting (some (description, items)) =>
    simp only [Item.areWritable, Bool.and_eq_true, decide_eq_true_eq] at hi
    obtain ⟨⟨hname, hnames, hitems⟩, -⟩ := hi
    rw [variableOf]
    split
    · exact spells_object_variable _ _ (.of_isIdentifier (Text.isIdentifier_of_isFree hname))
        (spells_comment isSequence_body comments description "" .nil) (spells_fields comments items hitems 2)
        (nodup_fieldNames comments hnames)
    · exact .nil isSequence_body

/-- The brackets that stand in one another in the text of the variables of a resource. -/
def resourceBrackets (comments : Bool) (block : Block) (mode : Mode) (variableName : String) : Nat :=
  ((variablesOf comments block mode variableName).map Variable.brackets).foldr max 0

/-- The variables of a resource are blocks with comments before them. -/
theorem spells_resourceLines (comments : Bool) {block : Block} {mode : Mode} {variableName : String}
    (hb : block.isWritable = true) (hv : Text.isIdentifier variableName.toList = true)
    (hd : mode = .single → ∀ a ∈ block.attributes, DescriptionRead a.2) :
    Spells BodyReads (resourceBrackets comments block mode variableName) []
      (Text.charsOf (resourceLines comments block mode variableName)) := by
  rw [areWritable_items, Bool.and_eq_true, decide_eq_true_eq] at hb
  refine Spells.flatMap isSequence_body fun v hmem => ?_
  cases mode with
  | single =>
    obtain ⟨i, hi, rfl⟩ := List.mem_map.mp hmem
    refine spells_variableOf comments i ((Item.areWritable_iff _).mp hb.2 i hi) ?_
    rintro name a rfl
    exact hd rfl (name, a) (Item.mem_attributes_of_mem_items hi)
  | multiple =>
    rw [List.mem_singleton.mp hmem]
    have hlines : (Variable.collection variableName (fields comments block.items)).lines
        = (Variable.object variableName none .list true (fields comments block.items)).lines := by
      simp [Variable.lines, commentLines]
    rw [hlines]
    exact spells_object_variable .list true (.of_isIdentifier hv) (.nil isSequence_body)
      (spells_fields comments block.items hb.2 2) (nodup_fieldNames comments hb.1)

end Inputs

end ModuleScaffold
