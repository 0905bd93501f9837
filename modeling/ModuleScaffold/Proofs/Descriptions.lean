import ModuleScaffold.Proofs.Bare
import ModuleScaffold.Proofs.Deleting

/-! # What descriptions change in a module

A description is written above what it describes, as a comment, and below the line that begins the variable of an
argument. Main statement: the resources of a module depend on no description, and the variables do so in these lines
only. -/

namespace ModuleScaffold

namespace Inputs

/-! ## The lines of descriptions -/

/-- Whether a line is a comment, wherever it stands. -/
def isComment (_ line : List Char) : Bool := Text.beginsWith ['/', '/'] (Text.trimLeft line)

/-- Whether a line describes the variable that the line above it begins. -/
def isDescription (above line : List Char) : Bool :=
  Text.beginsWith "variable \"".toList above && Text.beginsWith "  description = \"".toList line

/-- Whether a text has no quotes and slashes: the characters of which names and types are written. -/
def isUnquoted (s : List Char) : Bool :=
  s.all fun c => [' ', '(', ')', '\x7b', '\x7d', '=', '\n'].contains c || Text.isIdentifierChar c

theorem isUnquoted_append (s t : List Char) : isUnquoted (s ++ t) = (isUnquoted s && isUnquoted t) := List.all_append

theorem isUnquoted_name {s : List Char} (h : Text.IsName s) : isUnquoted s = true :=
  List.all_eq_true.mpr fun c hc => by rw [h.all c hc, Bool.or_true]

theorem isUnquoted_pad {s : List Char} (h : Reading.IsPad s) : isUnquoted s = true :=
  List.all_eq_true.mpr fun c hc => by rw [h c hc]; rfl

theorem not_mem_of_isUnquoted {s : List Char} (h : isUnquoted s = true) {mark : Char}
    (hmark : isUnquoted [mark] = false) : mark ∉ s := by
  intro hs
  have hone : isUnquoted [mark] = true := List.all_eq_true.mpr fun c hc => by
    rw [List.mem_singleton.mp hc]
    exact List.all_eq_true.mp h mark hs
  rw [hmark] at hone
  cases hone

theorem isUnquoted_indent (depth : Nat) : isUnquoted (AttributeType.indent depth).toList = true :=
  isUnquoted_pad (Reading.isPad_indent depth)

theorem isUnquoted_renderAt (depth : Nat) (type : AttributeType) (ht : type.isNamed = true) :
    isUnquoted (type.renderAt depth).toList = true := by
  induction depth, type using AttributeType.renderAt.induct _ (fun depth fields =>
      fieldsNamed fields = true → isUnquoted (AttributeType.renderFields depth fields).toList = true) with
  | case1 | case2 | case3 | case4 =>
    rw [AttributeType.renderAt]
    decide
  | case5 depth element ih | case6 depth element ih | case7 depth element ih =>
    rw [AttributeType.isNamed] at ht
    rw [AttributeType.renderAt]
    simp only [String.toList_append, isUnquoted_append, Bool.and_eq_true]
    exact ⟨⟨by decide, ih ht⟩, by decide⟩
  | case8 depth fields ih =>
    rw [AttributeType.isNamed] at ht
    rw [AttributeType.renderAt]
    simp only [String.toList_append, isUnquoted_append, Bool.and_eq_true]
    exact ⟨⟨⟨by decide, ih ht⟩, isUnquoted_indent depth⟩, by decide⟩
  | case9 depth =>
    rw [AttributeType.renderFields]
    decide
  | case10 depth name type rest iht ih =>
    rename_i hnamed
    simp only [fieldsNamed, Bool.and_eq_true] at hnamed
    obtain ⟨⟨hname, htype⟩, hrest⟩ := hnamed
    have hnames : isUnquoted name.toList = true := isUnquoted_name (.of_isIdentifier hname)
    rw [AttributeType.renderFields]
    simp only [String.toList_append, isUnquoted_append, Bool.and_eq_true]
    exact ⟨⟨⟨⟨⟨isUnquoted_indent (depth + 1), hnames⟩, by decide⟩, iht htype⟩, by decide⟩, ih hrest⟩

theorem isUnquoted_charsOf {ls : List String} (h : ∀ l ∈ ls, isUnquoted l.toList = true) :
    isUnquoted (Text.charsOf ls) = true := by
  induction ls with
  | nil => rfl
  | cons l ls ih =>
    rw [Text.charsOf_cons, ← List.singleton_append, isUnquoted_append, isUnquoted_append, h l List.mem_cons_self,
      ih fun k hk => h k (List.mem_cons_of_mem _ hk)]
    rfl

theorem isUnquoted_renderOptional (depth : Nat) (type : Option AttributeType)
    (ht : type.all AttributeType.isNamed = true) :
    isUnquoted (AttributeType.renderOptional depth type).toList = true := by
  cases type with
  | none => exact isUnquoted_renderAt depth .any rfl
  | some type => exact isUnquoted_renderAt depth type ht

/-! ### Fields -/

/-- The line that a field of a given type begins with, with all of the type. -/
def valueLine (depth : Nat) (name : String) (type : Option AttributeType) (required : Bool) : String :=
  AttributeType.indent depth ++ name ++ " = " ++
    (if required then AttributeType.renderOptional depth type
      else "optional(" ++ AttributeType.renderOptional depth type ++ ")")

/-- The line that begins a field for a nested block. -/
def objectLine (depth : Nat) (name : String) (holder : Holder) (required : Bool) : String :=
  AttributeType.indent depth ++ name ++ " = " ++ (if required then "" else "optional(") ++ holder.opening

/-- The line that ends it. -/
def closingLine (depth : Nat) (holder : Holder) (required : Bool) : String :=
  AttributeType.indent depth ++ holder.closing ++ (if required then "" else ")")

theorem fieldLines_value (depth : Nat) (name : String) (comment : Option String) (type : Option AttributeType)
    (required : Bool) (rest : List Field) :
    fieldLines depth (.value name comment type required :: rest)
      = commentLines (AttributeType.indent depth) comment ++ [valueLine depth name type required]
        ++ fieldLines depth rest := by
  rw [fieldLines]
  rfl

theorem fieldLines_object (depth : Nat) (name : String) (comment : Option String) (holder : Holder) (required : Bool)
    (inner rest : List Field) :
    fieldLines depth (.object name comment holder required inner :: rest)
      = [""] ++ (commentLines (AttributeType.indent depth) comment ++ [objectLine depth name holder required])
        ++ fieldLines (depth + 1) inner ++ [closingLine depth holder required, ""] ++ fieldLines depth rest := by
  rw [fieldLines, ← List.append_assoc [""]]
  rfl

theorem isUnquoted_opening (holder : Holder) : isUnquoted holder.opening.toList = true := by
  cases holder <;> decide

theorem isUnquoted_closing (holder : Holder) : isUnquoted holder.closing.toList = true := by
  cases holder <;> decide

theorem isUnquoted_valueLine (depth : Nat) {name : String} {type : Option AttributeType} (required : Bool)
    (hn : Text.isIdentifier name.toList = true) (ht : type.all AttributeType.isNamed = true) :
    isUnquoted (valueLine depth name type required).toList = true := by
  have htext := isUnquoted_renderOptional depth type ht
  have hname : isUnquoted name.toList = true := isUnquoted_name (.of_isIdentifier hn)
  unfold valueLine
  simp only [String.toList_append, isUnquoted_append, Bool.and_eq_true]
  refine ⟨⟨⟨isUnquoted_indent depth, hname⟩, by decide⟩, ?_⟩
  split
  · exact htext
  · simp only [String.toList_append, isUnquoted_append, Bool.and_eq_true]
    exact ⟨⟨by decide, htext⟩, by decide⟩

theorem isUnquoted_objectLine (depth : Nat) {name : String} (holder : Holder) (required : Bool)
    (hn : Text.isIdentifier name.toList = true) :
    isUnquoted (objectLine depth name holder required).toList = true := by
  have hname : isUnquoted name.toList = true := isUnquoted_name (.of_isIdentifier hn)
  unfold objectLine
  simp only [String.toList_append, isUnquoted_append, Bool.and_eq_true]
  refine ⟨⟨⟨⟨isUnquoted_indent depth, hname⟩, by decide⟩, ?_⟩, isUnquoted_opening holder⟩
  cases required <;> decide

theorem isUnquoted_closingLine (depth : Nat) (holder : Holder) (required : Bool) :
    isUnquoted (closingLine depth holder required).toList = true := by
  unfold closingLine
  simp only [String.toList_append, isUnquoted_append, Bool.and_eq_true]
  refine ⟨⟨isUnquoted_indent depth, isUnquoted_closing holder⟩, ?_⟩
  cases required <;> decide

theorem isUnquoted_fieldLines (depth : Nat) (items : List Item) (hi : Item.areNamed items = true) :
    ∀ l ∈ fieldLines depth (fields false items), isUnquoted l.toList = true := by
  induction items using fields.induct generalizing depth with
  | case1 =>
    rw [fields, fieldLines]
    exact List.forall_mem_nil _
  | case2 name a rest ih =>
    simp only [Item.areNamed, Bool.and_eq_true] at hi
    obtain ⟨⟨hname, htype⟩, hrest⟩ := hi
    rw [fields, fieldLines_value, commentFor_false, commentLines, List.nil_append, List.singleton_append,
      List.forall_mem_cons]
    exact ⟨isUnquoted_valueLine depth a.required hname htype, ih depth hrest⟩
  | case3 name nesting rest ih =>
    simp only [Item.areNamed, Bool.and_eq_true] at hi
    rw [fields, fieldLines]
    exact ih depth hi.2
  | case4 name nesting description items rest ihi ih =>
    simp only [Item.areNamed, Bool.and_eq_true] at hi
    obtain ⟨⟨hname, hitems⟩, hrest⟩ := hi
    rw [fields]
    split
    · next holder _ =>
      rw [fieldLines_object, commentFor_false, commentLines, List.nil_append]
      simp only [List.forall_mem_append, List.forall_mem_cons, List.not_mem_nil, false_implies, implies_true,
        and_true]
      exact ⟨⟨⟨⟨by decide, isUnquoted_objectLine depth holder _ hname⟩, ihi (depth + 1) hitems⟩,
        isUnquoted_closingLine depth holder _, by decide⟩, ih depth hrest⟩
    · rw [fieldLines]
      exact ih depth hrest

/-! ## Comments -/

open Layout (Thins)

/-- A condition on lines that no line without quotes and slashes meets. -/
def SparesUnquoted (drop : List Char → List Char → Bool) : Prop :=
  ∀ row, isUnquoted row = true → ∀ above, drop above row = false

namespace SparesUnquoted

variable {drop : List Char → List Char → Bool}

theorem empty (h : SparesUnquoted drop) : ∀ above, drop above [] = false := h [] rfl

theorem lines (h : SparesUnquoted drop) {s : List Char} (hs : isUnquoted s = true) :
    ∀ row ∈ Text.lines s, ∀ above, drop above row = false := by
  intro row hrow
  have hall := List.all_eq_true.mp hs
  exact h row (List.all_eq_true.mpr fun c hc => hall c (Text.mem_of_mem_lines hrow hc).1)

theorem thins (h : SparesUnquoted drop) {ls : List String} (hls : ∀ l ∈ ls, isUnquoted l.toList = true) :
    Thins drop ls ls :=
  .same h.empty (h.lines (isUnquoted_charsOf hls))

end SparesUnquoted

theorem isComment_of_head {line : List Char} (h : (Text.trimLeft line).head? ≠ some '/') (above : List Char) :
    isComment above line = false := by
  unfold isComment
  cases hline : Text.trimLeft line with
  | nil => rfl
  | cons c rest =>
    have hc : '/' ≠ c := by
      rintro rfl
      exact h (by rw [hline]; rfl)
    simp [Text.beginsWith, Text.after?, hc]

theorem spares_isComment : SparesUnquoted isComment := by
  intro row hrow
  have hslash : '/' ∉ row := not_mem_of_isUnquoted hrow (by decide)
  apply isComment_of_head
  intro hhead
  exact hslash ((List.dropWhile_sublist _).mem (List.mem_of_mem_head? hhead))

theorem spares_isDescription : SparesUnquoted isDescription := by
  intro row hrow above
  have hquote : '"' ∉ row := not_mem_of_isUnquoted hrow (by decide)
  have hnone : Text.after? "  description = \"".toList row = none := by
    cases hrest : Text.after? "  description = \"".toList row with
    | none => rfl
    | some rest =>
      rw [Text.after?_eq_some_iff.mp hrest] at hquote
      exact absurd (List.mem_append_left rest (by decide)) hquote
  rw [isDescription, Text.beginsWith, Text.beginsWith, hnone, Option.isSome_none, Bool.and_false]

theorem toList_commentLine (pad description : String) :
    (pad ++ "// " ++ commentOf description).toList
      = pad.toList ++ '/' :: '/' :: ' ' :: onOneLine (escapeQuotes description.toList) := by
  simp [commentOf]

/-- A comment above a line that begins with a word only adds itself. -/
theorem thins_comment (wanted : Bool) (description : String) {pad l : String} {front rest : List Char}
    (hpad : Reading.IsPad pad.toList) (hl : l.toList = front ++ rest) (hline : Text.IsLine front)
    (hopens : Layout.opens front = true)
    (hrows : ∀ row ∈ Text.lines (Text.charsOf [l]), ∀ above, isComment above row = false) :
    Thins isComment (commentLines pad (commentFor wanted description) ++ [l]) [l] := by
  unfold commentFor
  split
  · have htrim : Text.trimLeft (pad ++ "// " ++ commentOf description).toList
        = '/' :: '/' :: ' ' :: onOneLine (escapeQuotes description.toList) := by
      rw [toList_commentLine, Text.trimLeft_append _ _ hpad.isBlank]
      exact Text.trimLeft_eq_self _ (by simp [Text.isBlank])
    refine Layout.Thins.commented spares_isComment.empty ?_ ?_ ?_ hl hline hopens hrows
    · rw [toList_commentLine]
      exact hpad.isLine (by simp) (isLine_comment description)
    · rw [Layout.opens, htrim]
      rfl
    · intro above
      rw [isComment, htrim]
      rfl
  · exact .same spares_isComment.empty hrows

theorem isLine_front {pad name : List Char} (hp : Reading.IsPad pad) (hn : Text.IsName name) :
    Text.IsLine (pad ++ name) :=
  hp.isLine hn.ne_nil (Reading.isLine_of_not_blank hn.not_blank)

theorem opens_front {pad name : List Char} (hp : Reading.IsPad pad) (hn : Text.IsName name) :
    Layout.opens (pad ++ name) = true := by
  cases name with
  | nil => exact absurd rfl hn.ne_nil
  | cons c word =>
    have hc : c ≠ '\x7d' := by
      rintro rfl
      exact hn.not_mem '\x7d' (by decide) List.mem_cons_self
    rw [Layout.opens, Text.trimLeft_append _ _ hp.isBlank, Text.trimLeft_eq_self _ fun d hd =>
      hn.not_blank d (List.mem_of_mem_head? hd)]
    simpa using hc

/-- A comment above the line of a field only adds itself. -/
theorem thins_field (wanted : Bool) (description : String) (depth : Nat) {name l rest : String}
    (hn : Text.isIdentifier name.toList = true) (hl : l = AttributeType.indent depth ++ name ++ rest)
    (hu : isUnquoted l.toList = true) :
    Thins isComment (commentLines (AttributeType.indent depth) (commentFor wanted description) ++ [l]) [l] := by
  have hpad := Reading.isPad_indent depth
  have hname : Text.IsName name.toList := .of_isIdentifier hn
  have hfront : l.toList = (AttributeType.indent depth).toList ++ name.toList ++ rest.toList := by
    rw [hl, String.toList_append, String.toList_append]
  exact thins_comment wanted description hpad hfront (isLine_front hpad hname) (opens_front hpad hname)
    (spares_isComment.lines (isUnquoted_charsOf (List.forall_mem_singleton.mpr hu)))

theorem thins_fieldLines (comments : Bool) (depth : Nat) (items : List Item) (hi : Item.areNamed items = true) :
    Thins isComment (fieldLines depth (fields comments items)) (fieldLines depth (fields false items)) := by
  induction items using fields.induct generalizing depth with
  | case1 =>
    rw [fields, fields]
    exact spares_isComment.thins (by rw [fieldLines]; exact List.forall_mem_nil _)
  | case2 name a rest ih =>
    simp only [Item.areNamed, Bool.and_eq_true] at hi
    obtain ⟨⟨hname, htype⟩, hrest⟩ := hi
    rw [fields, fields, fieldLines_value, fieldLines_value, commentFor_false]
    have hline : valueLine depth name a.type a.required = AttributeType.indent depth ++ name ++ _ :=
      String.append_assoc ..
    have hvalue := thins_field comments a.description depth hname hline
      (isUnquoted_valueLine depth a.required hname htype)
    exact hvalue.append (ih depth hrest)
  | case3 name nesting rest ih =>
    simp only [Item.areNamed, Bool.and_eq_true] at hi
    rw [fields, fields, fieldLines, fieldLines]
    exact ih depth hi.2
  | case4 name nesting description items rest ihi ih =>
    simp only [Item.areNamed, Bool.and_eq_true] at hi
    obtain ⟨⟨hname, hitems⟩, hrest⟩ := hi
    rw [fields, fields]
    split
    · next holder _ =>
      rw [fieldLines_object, fieldLines_object, commentFor_false]
      have hline : objectLine depth name holder (!nesting.isOptional) = AttributeType.indent depth ++ name
          ++ (" = " ++ ((if !nesting.isOptional then "" else "optional(") ++ holder.opening)) := by
        simp only [objectLine, String.append_assoc]
      have hopening := thins_field comments description depth hname hline
        (isUnquoted_objectLine depth holder _ hname)
      have hclosing : Thins isComment [closingLine depth holder (!nesting.isOptional), ""]
          [closingLine depth holder (!nesting.isOptional), ""] :=
        spares_isComment.thins (by simpa using ⟨isUnquoted_closingLine depth holder _, by decide⟩)
      have hblank : Thins isComment [""] [""] := spares_isComment.thins (by decide)
      exact (((hblank.append hopening).append (ihi (depth + 1) hitems)).append hclosing).append (ih depth hrest)
    · rw [fieldLines, fieldLines]
      exact ih depth hrest

/-! ### Variables -/

theorem opens_header (name : String) : Layout.opens (header name).toList = true := by
  rw [toList_header]
  exact Layout.opens_append (by decide) _

theorem isLine_header {name : String} (hn : '\n' ∉ name.toList) : Text.IsLine (header name).toList := by
  constructor
  · simp [header, hn]
  · simp [header, List.getLast?_append, List.getLast?_cons]

theorem isComment_header (name : String) (above : List Char) : isComment above (header name).toList = false := by
  rw [toList_header]
  exact isComment_of_head (by simp [Text.trimLeft, Text.isBlank]) above

theorem isDescription_header (name : String) (above : List Char) :
    isDescription above (header name).toList = false := by
  rw [toList_header, isDescription]
  exact Bool.and_false _

theorem thins_header (wanted : Bool) (description : String) {name : String} (hn : '\n' ∉ name.toList) :
    Thins isComment (commentLines "" (commentFor wanted description) ++ [header name]) [header name] := by
  refine thins_comment wanted description .nil (toList_header name) ⟨by decide, by decide⟩ (by decide) ?_
  rw [Text.lines_charsOf_singleton (isLine_header hn), List.forall_mem_singleton]
  exact isComment_header name

/-- The line of a description. -/
def descriptionLine (description : String) : String :=
  "  description = " ++ String.ofList (Hcl.Quoted.encode (onOneLine description.toList))

theorem toList_descriptionLine (description : String) :
    (descriptionLine description).toList
      = "  description = ".toList ++ Hcl.Quoted.encode (onOneLine description.toList) := by
  unfold descriptionLine
  rw [String.toList_append]
  exact congrArg ("  description = ".toList ++ ·) String.toList_ofList

theorem isLine_descriptionLine (description : String) : Text.IsLine (descriptionLine description).toList := by
  have hencoded := isLine_encode (onOneLine description.toList)
  rw [toList_descriptionLine]
  constructor
  · simpa using hencoded.1
  · rw [List.getLast?_append, getLast?_encode]
    decide

theorem opens_descriptionLine (description : String) : Layout.opens (descriptionLine description).toList = true := by
  rw [toList_descriptionLine]
  exact Layout.opens_append (by decide) _

theorem isComment_descriptionLine (description : String) (above : List Char) :
    isComment above (descriptionLine description).toList = false := by
  rw [toList_descriptionLine]
  exact isComment_of_head (by simp [Text.trimLeft, Text.isBlank]) above

theorem isDescription_descriptionLine (name description : String) :
    isDescription (header name).toList (descriptionLine description).toList = true := by
  have hheader : (header name).toList = "variable \"".toList ++ (name ++ "\" \x7b").toList := by simp [header]
  have hline : (descriptionLine description).toList = "  description = \"".toList
      ++ ((Hcl.Quoted.escapeTemplates (onOneLine description.toList)).flatMap Hcl.Quoted.escapeChar ++ ['"']) := by
    rw [toList_descriptionLine]
    simp [Hcl.Quoted.encode]
  rw [isDescription, hheader, hline, Text.beginsWith, Text.beginsWith, Text.after?_append, Text.after?_append]
  rfl

/-- What follows the line that begins a variable of an argument, and its description. -/
def valueTail (type : Option AttributeType) (nullable : Bool) : List String :=
  ["  type = " ++ AttributeType.renderOptional 1 type] ++ defaultLines nullable ++ ["\x7d", ""]

theorem lines_value (name : String) (comment description : Option String) (type : Option AttributeType)
    (nullable : Bool) :
    (Variable.value name comment description type nullable).lines
      = (commentLines "" comment ++ [header name]) ++ descriptionLines description ++ valueTail type nullable := by
  simp [Variable.lines, valueTail]

theorem lines_object (name : String) (comment : Option String) (holder : Holder) (nullable : Bool)
    (inner : List Field) :
    (Variable.object name comment holder nullable inner).lines
      = (commentLines "" comment ++ [header name]) ++ ["  type = " ++ holder.opening] ++ fieldLines 2 inner
        ++ (["  " ++ holder.closing] ++ defaultLines nullable ++ ["\x7d", ""]) := by
  simp [Variable.lines]

theorem lines_collection (name : String) (inner : List Field) :
    (Variable.collection name inner).lines = (Variable.object name none .list true inner).lines := by
  simp [Variable.lines, commentLines]

theorem isUnquoted_defaultLines (nullable : Bool) : ∀ l ∈ defaultLines nullable, isUnquoted l.toList = true := by
  cases nullable <;> decide

theorem isUnquoted_valueTail {type : Option AttributeType} (nullable : Bool)
    (ht : type.all AttributeType.isNamed = true) : ∀ l ∈ valueTail type nullable, isUnquoted l.toList = true := by
  have htype : isUnquoted ("  type = " ++ AttributeType.renderOptional 1 type).toList = true := by
    rw [String.toList_append]
    rw [isUnquoted_append, isUnquoted_renderOptional 1 type ht]
    rfl
  unfold valueTail
  simp only [List.forall_mem_append, List.forall_mem_singleton]
  exact ⟨⟨htype, isUnquoted_defaultLines nullable⟩, by decide⟩

theorem isUnquoted_typeLine (holder : Holder) : isUnquoted ("  type = " ++ holder.opening).toList = true := by
  cases holder <;> decide

theorem isUnquoted_objectTail (holder : Holder) (nullable : Bool) :
    ∀ l ∈ ["  " ++ holder.closing] ++ defaultLines nullable ++ ["\x7d", ""], isUnquoted l.toList = true := by
  have hclosing : isUnquoted ("  " ++ holder.closing).toList = true := by cases holder <;> decide
  simp only [List.forall_mem_append, List.forall_mem_singleton]
  exact ⟨⟨hclosing, isUnquoted_defaultLines nullable⟩, by decide⟩

/-- The comments of a variable for a nested block, and those in its type, only add themselves. -/
theorem thins_object (comments : Bool) (wanted : Bool) (description : String) {name : String} (holder : Holder)
    (nullable : Bool) {items : List Item} (hn : '\n' ∉ name.toList) (hi : Item.areNamed items = true) :
    Thins isComment
      (Variable.object name (commentFor wanted description) holder nullable (fields comments items)).lines
      (Variable.object name none holder nullable (fields false items)).lines := by
  rw [lines_object, lines_object]
  exact (((thins_header wanted description hn).append
    (spares_isComment.thins (List.forall_mem_singleton.mpr (isUnquoted_typeLine holder)))).append
    (thins_fieldLines comments 2 items hi)).append (spares_isComment.thins (isUnquoted_objectTail holder nullable))

theorem thins_descriptionLines (description : Option String) :
    Thins isComment (descriptionLines description) (descriptionLines description) := by
  cases description with
  | none => exact spares_isComment.thins (List.forall_mem_nil _)
  | some description =>
    have hlines : Text.lines (Text.charsOf (descriptionLines (some description)))
        = [(descriptionLine description).toList] :=
      Text.lines_charsOf_singleton (isLine_descriptionLine description)
    refine .same spares_isComment.empty ?_
    rw [hlines, List.forall_mem_singleton]
    exact isComment_descriptionLine description

theorem not_mem_of_isIdentifier {name : String} (hn : Text.isIdentifier name.toList = true) : '\n' ∉ name.toList :=
  (Text.IsName.of_isIdentifier hn).not_mem '\n' (by decide)

theorem thins_variableOf (comments : Bool) (i : Item) (hi : Item.areNamed [i] = true) :
    Thins isComment (variableOf comments i).lines (variableOf false i).lines := by
  match i with
  | .argument name a =>
    simp only [Item.areNamed, Bool.and_eq_true] at hi
    rw [variableOf, variableOf, lines_value, lines_value]
    exact ((thins_header comments a.description (not_mem_of_isIdentifier hi.1.1)).append
      (thins_descriptionLines _)).append (spares_isComment.thins (isUnquoted_valueTail a.optional hi.1.2))
  | .block name _ none => exact spares_isComment.thins (List.forall_mem_nil _)
  | .block name nesting (some (description, items)) =>
    simp only [Item.areNamed, Bool.and_eq_true] at hi
    rw [variableOf, variableOf]
    split
    · exact thins_object comments comments description _ _ (not_mem_of_isIdentifier hi.1.1) hi.1.2
    · exact spares_isComment.thins (List.forall_mem_nil _)

/-- A description below the line that begins a variable only adds itself. -/
theorem thins_described (description : Option String) {name : String} (hn : '\n' ∉ name.toList) :
    Thins isDescription ([header name] ++ descriptionLines description) [header name] := by
  cases description with
  | none =>
    have hlines := Text.lines_charsOf_singleton (isLine_header hn)
    refine .same spares_isDescription.empty ?_
    rw [descriptionLines, List.append_nil, hlines, List.forall_mem_singleton]
    exact isDescription_header name
  | some description =>
    exact .described (isLine_header hn) (opens_header name) (isDescription_header name)
      (isLine_descriptionLine description) (opens_descriptionLine description)
      (isDescription_descriptionLine name description)

theorem thins_plainObject {name : String} (holder : Holder) (nullable : Bool) {items : List Item}
    (hn : '\n' ∉ name.toList) (hi : Item.areNamed items = true) :
    Thins isDescription (Variable.object name none holder nullable (fields false items)).lines
      (Variable.object name none holder nullable (fields false items)).lines := by
  rw [lines_object]
  exact (((thins_described none hn).append
    (spares_isDescription.thins (List.forall_mem_singleton.mpr (isUnquoted_typeLine holder)))).append
    (spares_isDescription.thins (isUnquoted_fieldLines 2 items hi))).append
    (spares_isDescription.thins (isUnquoted_objectTail holder nullable))

theorem thins_undescribed (i : Item) (hi : Item.areNamed [i] = true) :
    Thins isDescription (variableOf false i).lines (variableOf false i).undescribed.lines := by
  match i with
  | .argument name a =>
    simp only [Item.areNamed, Bool.and_eq_true] at hi
    rw [variableOf, Variable.undescribed, lines_value, lines_value]
    exact (thins_described _ (not_mem_of_isIdentifier hi.1.1)).append
      (spares_isDescription.thins (isUnquoted_valueTail a.optional hi.1.2))
  | .block name _ none => exact spares_isDescription.thins (List.forall_mem_nil _)
  | .block name nesting (some (description, items)) =>
    simp only [Item.areNamed, Bool.and_eq_true] at hi
    rw [variableOf, commentFor_false]
    split
    · exact thins_plainObject _ _ (not_mem_of_isIdentifier hi.1.1) hi.1.2
    · exact spares_isDescription.thins (List.forall_mem_nil _)

/-! ## Modules -/

variable {block : Block} {variableName : String}

theorem thins_comments (comments : Bool) (mode : Mode) (hb : block.isNamed = true)
    (hn : '\n' ∉ variableName.toList) :
    Thins isComment (resourceLines comments block mode variableName)
      (resourceLines false block mode variableName) := by
  have hitems : Item.areNamed block.items = true := by rw [areNamed_items]; exact hb
  cases mode with
  | single =>
    rw [resourceLines, resourceLines, variablesOf, variablesOf, List.flatMap_map, List.flatMap_map]
    exact .flatMap fun i hi => thins_variableOf comments i ((Item.areNamed_iff _).mp hitems i hi)
  | multiple =>
    have hcollection := thins_object comments false "" .list true hn hitems
    rw [resourceLines, resourceLines, variablesOf, variablesOf, List.flatMap_singleton, List.flatMap_singleton,
      lines_collection, lines_collection]
    exact hcollection

theorem thins_descriptions (comments : Bool) (mode : Mode) (hb : block.isNamed = true)
    (hn : '\n' ∉ variableName.toList) :
    Thins isDescription (resourceLines false block mode variableName)
      (resourceLines comments block.bare mode variableName) := by
  have hitems : Item.areNamed block.items = true := by rw [areNamed_items]; exact hb
  cases mode with
  | single =>
    rw [resourceLines, resourceLines, variablesOf, variablesOf, items_bare, Item.bares_eq_map, List.map_map,
      List.flatMap_map, List.flatMap_map]
    refine .flatMap fun i hi => ?_
    rw [Function.comp_apply, variableOf_bare]
    exact thins_undescribed i ((Item.areNamed_iff _).mp hitems i hi)
  | multiple =>
    rw [resourceLines, resourceLines, variablesOf, variablesOf, List.flatMap_singleton, List.flatMap_singleton,
      lines_collection, lines_collection, items_bare, fields_bares]
    exact thins_plainObject .list true hn hitems

end Inputs

namespace Plan

variable {p : Plan} {s : SchemaSet}

/-- The plan with comments or without. -/
def commented (comments : Bool) (p : Plan) : Plan := { p with comments }

theorem found_bare : p.found s.bare = (p.found s).map fun e => (e.1, { e.2 with block := e.2.block.bare }) := by
  unfold found
  rw [List.map_filterMap]
  apply List.filterMap_congr
  intro r _
  rw [SchemaSet.bare, SchemaSet.resource?_mapBlocks, Option.map_map, Option.map_map]
  rfl

theorem main_bare (p : Plan) (s : SchemaSet) : (p.generate s.bare).main = (p.generate s).main := by
  unfold generate
  rw [flatMap_mainLines, flatMap_mainLines, found_bare, List.flatMap_map]
  simp only [Body.resourceLines_bare]

theorem not_mem_variableName_of_found (hs : s.isNamed = true) {e : Request × ResourceSchema} (he : e ∈ p.found s) :
    '\n' ∉ (Naming.variableName e.1.type).toList :=
  Naming.not_mem_variableName (findsNamed_of_isNamed hs e he).1 '\n' (by decide)

theorem deleteLines_comments (p : Plan) (hs : s.isNamed = true) :
    Text.deleteLines Inputs.isComment ((p.commented true).generate s).inputs
      = ((p.commented false).generate s).inputs := by
  unfold generate
  rw [flatMap_variableLines, flatMap_variableLines]
  exact Layout.deleteLines_tidy Inputs.spares_isComment.empty (.flatMap fun e he =>
    Inputs.thins_comments true e.1.mode (findsNamed_of_isNamed hs e he).2 (not_mem_variableName_of_found hs he))

theorem deleteLines_descriptions (p : Plan) (hs : s.isNamed = true) (comments : Bool) :
    Text.deleteLines Inputs.isDescription ((p.commented false).generate s).inputs
      = ((p.commented comments).generate s.bare).inputs := by
  unfold generate
  rw [flatMap_variableLines, flatMap_variableLines, found_bare, List.flatMap_map]
  exact Layout.deleteLines_tidy Inputs.spares_isDescription.empty (.flatMap fun e he =>
    Inputs.thins_descriptions comments e.1.mode (findsNamed_of_isNamed hs e he).2
      (not_mem_variableName_of_found hs he))

/-- Descriptions do not change the structure of a module. The resources are the same whatever is described how, and
whether or not comments are wanted. The variables with comments are those without them after deleting the comment
lines, and those are the variables of the schemas without descriptions after deleting what describes a variable. -/
theorem descriptions_only_add_lines (p : Plan) (s : SchemaSet) (hs : s.isNamed = true) :
    (∀ t comments, t.bare = s.bare → ((p.commented comments).generate t).main = (p.generate s).main) ∧
    Text.deleteLines Inputs.isComment ((p.commented true).generate s).inputs
      = ((p.commented false).generate s).inputs ∧
    ∀ comments, Text.deleteLines Inputs.isDescription ((p.commented false).generate s).inputs
      = ((p.commented comments).generate s.bare).inputs := by
  refine ⟨?_, deleteLines_comments p hs, deleteLines_descriptions p hs⟩
  intro t comments ht
  calc ((p.commented comments).generate t).main
    _ = (p.generate t.bare).main := (main_bare p t).symm
    _ = (p.generate s.bare).main := by rw [ht]
    _ = (p.generate s).main := main_bare p s

/-- A resource of which every part is described by the same words. -/
def notedSchemas (note : String) : SchemaSet :=
  ⟨"1.0", [("host/owner/vm", [("vm_disk", ⟨0, .mk [("size", ⟨some .number, note, true, false, false⟩)]
    [("mount", ⟨.list, 0, 1⟩, some (.mk [("path", ⟨some .string, note, false, true, false⟩)] [] note))]
    note⟩)])]⟩

/-- Words that would end a block, begin a comment and leave a quotation if they were written as they are. -/
def breakingNote : String := "in use\n\x7d\n// of \"all\""

def notedPlan : Plan := ⟨[volumeRequest "vm_disk" .single, volumeRequest "vm_disk" .multiple], "host", true⟩

theorem descriptions_only_add_lines_breakingNote :
    (notedSchemas breakingNote).isNamed = true ∧
    ((notedPlan.commented false).generate (notedSchemas "size")).main
      = (notedPlan.generate (notedSchemas breakingNote)).main ∧
    Text.deleteLines Inputs.isComment ((notedPlan.commented true).generate (notedSchemas breakingNote)).inputs
      = ((notedPlan.commented false).generate (notedSchemas breakingNote)).inputs ∧
    Text.deleteLines Inputs.isDescription ((notedPlan.commented false).generate (notedSchemas breakingNote)).inputs
      = ((notedPlan.commented true).generate (notedSchemas "")).inputs := by
  have hs : (notedSchemas breakingNote).isNamed = true := by decide
  obtain ⟨hmain, hcomments, hdescriptions⟩ := descriptions_only_add_lines notedPlan (notedSchemas breakingNote) hs
  exact ⟨hs, hmain (notedSchemas "size") false rfl, hcomments, hdescriptions true⟩

end Plan

end ModuleScaffold
