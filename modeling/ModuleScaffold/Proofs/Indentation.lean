import ModuleScaffold.Proofs.Removing
import ModuleScaffold.Proofs.Skips
import ModuleScaffold.Proofs.Text.Hanging

/-! # Indentation of declared types

A type is written on several lines where objects are in it, and how deep it is declared shows in the blanks at the
beginnings of these lines only. Main statement: a type that is declared some levels deeper is the same text, hanging two
blanks deeper for each level. -/

namespace ModuleScaffold

namespace AttributeType

mutual

/-- No field in a type has a name with a line break. -/
def IsUnbroken : AttributeType → Prop
  | string | number | bool | any => True
  | list element | set element | map element => element.IsUnbroken
  | object fields => AreUnbroken fields

def AreUnbroken : List (String × AttributeType) → Prop
  | [] => True
  | (name, type) :: rest => '\n' ∉ name.toList ∧ type.IsUnbroken ∧ AreUnbroken rest

end

/-! ## Deeper declarations -/

theorem toList_indent (depth : Nat) : (indent depth).toList = List.replicate (2 * depth) ' ' := by
  unfold indent
  rw [String.toList_ofList]

theorem toList_indent_add (more depth : Nat) :
    (indent (more + depth)).toList = (indent more).toList ++ (indent depth).toList := by
  rw [toList_indent, toList_indent, toList_indent, List.replicate_append_replicate, Nat.mul_add]

theorem not_feed_mem_indent (depth : Nat) : '\n' ∉ (indent depth).toList := by
  rw [toList_indent]
  simp

theorem hang_indent (blanks depth : Nat) : Text.hang blanks (indent depth).toList = (indent depth).toList :=
  Text.hang_of_not_mem blanks (not_feed_mem_indent depth)

theorem toList_object (depth : Nat) (fields : List (String × AttributeType)) :
    ((object fields).renderAt depth).toList = "object(\x7b".toList
      ++ '\n' :: ((renderFields depth fields).toList ++ (indent depth).toList ++ "\x7d)".toList) := by
  rw [renderAt]
  simp

theorem toList_fields (depth : Nat) (name : String) (type : AttributeType) (rest : List (String × AttributeType)) :
    (renderFields depth ((name, type) :: rest)).toList
      = (indent (depth + 1)).toList ++ name.toList ++ " = ".toList ++ (type.renderAt (depth + 1)).toList
        ++ '\n' :: (renderFields depth rest).toList := by
  rw [renderFields]
  simp

/-- The whole type moves when it is declared deeper, and nothing else of its text changes. -/
theorem renderAt_add (more depth : Nat) (type : AttributeType) (h : type.IsUnbroken) :
    (type.renderAt (more + depth)).toList = Text.hang (2 * more) (type.renderAt depth).toList := by
  -- The blanks that hang before a field belong to the line feed above it, so along the fields they pass from behind
  -- to the front.
  induction depth, type using renderAt.induct _ (fun depth fields =>
      AreUnbroken fields →
        (renderFields (more + depth) fields).toList ++ (indent more).toList
          = (indent more).toList ++ Text.hang (2 * more) (renderFields depth fields).toList) with
  | case1 | case2 | case3 | case4 =>
    rw [renderAt, renderAt]
    rfl
  | case5 depth element ih | case6 depth element ih | case7 depth element ih =>
    rw [IsUnbroken] at h
    rw [renderAt, renderAt]
    simp only [String.toList_append, Text.hang_append, ih h]
    rfl
  | case8 depth fields ih =>
    rw [IsUnbroken] at h
    have hfields := ih h
    have hopening : Text.hang (2 * more) "object(\x7b".toList = "object(\x7b".toList := rfl
    have hclosing : Text.hang (2 * more) "\x7d)".toList = "\x7d)".toList := rfl
    rw [toList_object, toList_object, toList_indent_add]
    simp only [Text.hang_append, Text.hang_feed, hang_indent, hopening, hclosing, ← toList_indent]
    rw [← List.append_assoc (renderFields _ _).toList, hfields]
    simp only [List.append_assoc]
  | case9 depth =>
    rw [renderFields, renderFields]
    simp [Text.hang]
  | case10 depth name type rest iht ih =>
    rename_i hunbroken
    obtain ⟨hname, htype, hrest⟩ := hunbroken
    have hequals : Text.hang (2 * more) " = ".toList = " = ".toList := rfl
    rw [toList_fields, toList_fields, Nat.add_assoc, iht htype, toList_indent_add]
    simp only [Text.hang_append, Text.hang_feed, hang_indent, Text.hang_of_not_mem _ hname, hequals, List.append_assoc,
      List.cons_append, ih hrest, ← toList_indent]

theorem flushLines_renderAt (type : AttributeType) (h : type.IsUnbroken) (depth other : Nat) :
    Text.flushLines (type.renderAt depth).toList = Text.flushLines (type.renderAt other).toList := by
  have hdepth := renderAt_add depth 0 type h
  have hother := renderAt_add other 0 type h
  rw [Nat.add_zero] at hdepth hother
  rw [hdepth, hother, Text.flushLines_hang, Text.flushLines_hang]

/-! ## Full lines -/

theorem isFull_renderAt (depth : Nat) (type : AttributeType) (h : type.IsUnbroken) :
    Text.IsFull (type.renderAt depth).toList := by
  -- Fields end with a line feed, so what follows them has to begin with a full line.
  induction depth, type using renderAt.induct _ (fun depth fields =>
      AreUnbroken fields → ∀ s, Text.IsFull s → Text.IsFull ((renderFields depth fields).toList ++ s)) with
  | case1 | case2 | case3 | case4 =>
    rw [renderAt]
    exact .word (by decide) (by decide)
  | case5 depth element ih | case6 depth element ih | case7 depth element ih =>
    rw [IsUnbroken] at h
    rw [renderAt, String.toList_append, String.toList_append]
    exact ((ih h).before (by decide)).after (by decide)
  | case8 depth fields ih =>
    rw [IsUnbroken] at h
    have hopening : Text.IsFull "object(\x7b".toList := .word (by decide) (by decide)
    have hclosing : Text.IsFull "\x7d)".toList := .word (by decide) (by decide)
    rw [toList_object, List.append_assoc]
    exact hopening.feed (ih h _ (hclosing.before (not_feed_mem_indent depth)))
  | case9 depth =>
    rename_i s hs
    rw [renderFields]
    exact hs
  | case10 depth name type rest iht ih =>
    rename_i hunbroken s hs
    obtain ⟨hname, htype, hrest⟩ := hunbroken
    have hfront : '\n' ∉ (indent (depth + 1)).toList ++ name.toList ++ " = ".toList := by
      simp [not_feed_mem_indent, hname]
    rw [toList_fields, List.append_assoc]
    exact ((iht htype).before hfront).feed (ih hrest s hs)

/-! ## Objects in a type -/

/-- A place in a type, on the way from the whole type to a part of it. -/
inductive Place where
  | here
  | list (inner : Place)
  | set (inner : Place)
  | map (inner : Place)
  | field (before : List (String × AttributeType)) (name : String) (inner : Place)
    (after : List (String × AttributeType))

namespace Place

/-- The type with this part at a place. -/
def put : Place → AttributeType → AttributeType
  | here, part => part
  | list inner, part => .list (inner.put part)
  | set inner, part => .set (inner.put part)
  | map inner, part => .map (inner.put part)
  | field before name inner after, part => .object (before ++ (name, inner.put part) :: after)

/-- How many objects are around a place. -/
def nesting : Place → Nat
  | here => 0
  | list inner | set inner | map inner => inner.nesting
  | field _ _ inner _ => inner.nesting + 1

/-- What is written around the part at a place, whatever the part is. The part is written as deep as the objects around
it make it, and only closing parentheses stand behind it on its last line. -/
structure Surrounds (place : Place) (depth : Nat) (before closing after : List Char) : Prop where
  text : ∀ part, ((place.put part).renderAt depth).toList
    = before ++ (part.renderAt (depth + place.nesting)).toList ++ closing ++ after
  closing : ∀ c ∈ closing, c = ')'
  after : ∀ c ∈ after.head?, c = '\n'

theorem Surrounds.collection {place inner : Place} {depth : Nat} {before closing after word : List Char}
    (h : inner.Surrounds depth before closing after) (hn : place.nesting = inner.nesting)
    (hput : ∀ part, ((place.put part).renderAt depth).toList
      = word ++ ((inner.put part).renderAt depth).toList ++ [')']) :
    ∃ closing' after', place.Surrounds depth (word ++ before) closing' after' := by
  -- The parenthesis of the collection stands on the last line of the part only if nothing else follows this line.
  cases after with
  | nil =>
    refine ⟨closing ++ [')'], [], fun part => ?_, ?_, by simp⟩
    · rw [hput, h.text, hn]
      simp
    · simpa [or_imp, forall_and] using h.closing
  | cons c after =>
    refine ⟨closing, c :: (after ++ [')']), fun part => ?_, h.closing, h.after⟩
    rw [hput, h.text, hn]
    simp

theorem renderFields_append (depth : Nat) (fields others : List (String × AttributeType)) :
    renderFields depth (fields ++ others) = renderFields depth fields ++ renderFields depth others := by
  induction fields with
  | nil => simp [renderFields]
  | cons e fields ih =>
    obtain ⟨name, type⟩ := e
    simp [renderFields, ih, String.append_assoc]

theorem exists_feed_renderFields (depth : Nat) (fields : List (String × AttributeType)) :
    ∃ inside, '\n' :: (renderFields depth fields).toList = inside ++ ['\n'] := by
  induction fields with
  | nil => exact ⟨[], by simp [renderFields]⟩
  | cons e fields ih =>
    obtain ⟨name, type⟩ := e
    obtain ⟨inside, hinside⟩ := ih
    refine ⟨'\n' :: ((indent (depth + 1)).toList ++ name.toList ++ " = ".toList ++ (type.renderAt (depth + 1)).toList
      ++ inside), ?_⟩
    rw [toList_fields, hinside]
    simp

theorem Surrounds.field {inner : Place} {depth : Nat} {before closing after : List Char}
    (h : inner.Surrounds (depth + 1) before closing after) (fields : List (String × AttributeType)) (name : String)
    (others : List (String × AttributeType)) :
    ∃ before' after', (Place.field fields name inner others).Surrounds depth before' closing after' := by
  have hdepth : depth + (Place.field fields name inner others).nesting = depth + 1 + inner.nesting := by
    rw [nesting]
    omega
  refine ⟨"object(\x7b\n".toList ++ (renderFields depth fields).toList ++ (indent (depth + 1)).toList ++ name.toList
      ++ " = ".toList ++ before,
    after ++ '\n' :: ((renderFields depth others).toList ++ (indent depth).toList ++ "\x7d)".toList),
    fun part => ?_, h.closing, ?_⟩
  · rw [put, toList_object, renderFields_append, String.toList_append, toList_fields, h.text, hdepth]
    simp
  · cases after with
    | nil => simp
    | cons c after => exact h.after

theorem exists_surrounds (place : Place) (depth : Nat) :
    ∃ before closing after, place.Surrounds depth before closing after := by
  induction place generalizing depth with
  | here => exact ⟨[], [], [], by simp [put, nesting], by simp, by simp⟩
  | list inner ih | set inner ih | map inner ih =>
    obtain ⟨before, closing, after, h⟩ := ih depth
    exact ⟨_, h.collection rfl fun part => by rw [put, renderAt, String.toList_append, String.toList_append]; rfl⟩
  | field fields name inner others ih =>
    obtain ⟨before, closing, after, h⟩ := ih (depth + 1)
    obtain ⟨before', after', hfield⟩ := h.field fields name others
    exact ⟨before', closing, after', hfield⟩

/-- An object ends on a line of its own, indented for all the objects around it. -/
theorem Surrounds.object {place : Place} {depth : Nat} {before closing after : List Char}
    (h : place.Surrounds depth before closing after) (fields : List (String × AttributeType)) :
    ∃ inside, ((place.put (.object fields)).renderAt depth).toList = before ++ "object(\x7b".toList ++ inside
      ++ '\n' :: ((indent (depth + place.nesting)).toList ++ "\x7d)".toList ++ closing ++ after) := by
  -- A field ends with a line feed, and where there is none the opening line does.
  obtain ⟨inside, hinside⟩ := exists_feed_renderFields (depth + place.nesting) fields
  refine ⟨inside, ?_⟩
  rw [h.text, toList_object, ← List.cons_append, ← List.cons_append, hinside]
  simp

end Place

end AttributeType

/-! ## Declarations -/

namespace Inputs

/-- How deep the type of an attribute at a path of nested blocks is declared. -/
def typeDepth : Mode → List String → Nat
  | .single, [] => 1
  | .single, _ :: path => 2 + path.length
  | .multiple, path => 2 + path.length

/-- The line of a variable or of a field that declares an attribute with this type. -/
def typeLine (mode : Mode) (path : List String) (name : String) (required : Bool) (type : String) : String :=
  match mode, path with
  | .single, [] => "  type = " ++ type
  | _, _ => AttributeType.indent (typeDepth mode path) ++ name ++ " = "
      ++ (if required then type else "optional(" ++ type ++ ")")

theorem mem_fieldLines {b : Block} {i : Item} (hi : i ∈ b.items) {comments : Bool} {depth : Nat} {l : String}
    (hl : l ∈ fieldLines depth (fields comments [i])) : l ∈ fieldLines depth (fields comments b.items) := by
  rw [fieldLines_fields]
  exact List.mem_flatMap.mpr ⟨i, hi, hl⟩

theorem valueLine_mem {b c : Block} {path : List String} (h : b.Reaches path c) {name : String} {a : Attribute}
    (ha : (name, a) ∈ c.attributes) (comments : Bool) (depth : Nat) :
    valueLine (depth + path.length) name a.type a.required ∈ fieldLines depth (fields comments b.items) := by
  induction h generalizing depth with
  | here =>
    refine mem_fieldLines (Block.argument_mem_items ha) ?_
    rw [fields, fieldLines_value]
    simp
  | @inside b inner c label nesting path hmem hmode _ ih =>
    obtain ⟨holder, hholder⟩ := exists_ofMode? hmode
    have hinner := ih ha (depth + 1)
    refine mem_fieldLines (Block.block_mem_items hmem) ?_
    rw [fields, hholder, fieldLines_object, List.length_cons, Nat.add_comm path.length, ← Nat.add_assoc]
    simp only [List.mem_append]
    exact Or.inl (Or.inl (Or.inr hinner))

/-- An attribute that is reached through written blocks is declared, wherever it is, with the text of its type. -/
theorem typeLine_mem {b c : Block} {path : List String} (h : b.Reaches path c) {name : String} {a : Attribute}
    (ha : (name, a) ∈ c.attributes) (comments : Bool) (mode : Mode) (variableName : String) :
    typeLine mode path name a.required (AttributeType.renderOptional (typeDepth mode path) a.type)
      ∈ resourceLines comments b mode variableName := by
  unfold resourceLines variablesOf
  rw [List.mem_flatMap]
  cases mode with
  | multiple =>
    have hfield := valueLine_mem h ha comments 2
    refine ⟨_, List.mem_singleton_self _, ?_⟩
    rw [lines_collection, lines_object]
    simp only [List.mem_append]
    exact Or.inl (Or.inr hfield)
  | single =>
    cases h with
    | here =>
      refine ⟨_, List.mem_map_of_mem (Block.argument_mem_items ha), ?_⟩
      simp [typeLine, typeDepth, variableOf, Variable.lines]
    | inside hmem hmode h =>
      have hfield := valueLine_mem h ha comments 2
      refine ⟨_, List.mem_map_of_mem (Block.block_mem_items hmem), ?_⟩
      rw [variableOf, if_pos ((isSupported_iff_written _).mpr hmode), lines_object]
      simp only [List.mem_append]
      exact Or.inl (Or.inr hfield)

end Inputs

/-! ## The law -/

namespace AttributeType

/-- A type that is declared deeper hangs deeper as a whole. So it is written alike wherever it is declared, but for the
blanks at the beginnings of its lines; an object in it ends on a line of its own, which is indented for the depth of the
declaration and the objects around this one; and no line is blank. -/
theorem depth_indents_whole_type (type : AttributeType) (h : type.IsUnbroken) :
    (∀ more depth, (type.renderAt (more + depth)).toList = Text.hang (2 * more) (type.renderAt depth).toList) ∧
    (∀ depth, (type.renderAt depth).toList = Text.hang (2 * depth) (type.renderAt 0).toList) ∧
    (∀ (b c : Block) (path : List String) (name : String) (a : Attribute), b.Reaches path c →
      (name, a) ∈ c.attributes → a.type.getD any = type → ∀ comments mode variableName,
        Inputs.typeLine mode path name a.required (type.renderAt (Inputs.typeDepth mode path))
          ∈ Inputs.resourceLines comments b mode variableName) ∧
    (∀ depth other, Text.flushLines (type.renderAt depth).toList = Text.flushLines (type.renderAt other).toList) ∧
    (∀ (place : Place) (fields : List (String × AttributeType)), type = place.put (object fields) → ∀ depth,
      ∃ before inside closing after, place.Surrounds depth before closing after ∧
        (type.renderAt depth).toList = before ++ "object(\x7b".toList ++ inside
          ++ '\n' :: ((indent (depth + place.nesting)).toList ++ "\x7d)".toList ++ closing ++ after)) ∧
    ∀ depth, Text.IsFull (type.renderAt depth).toList := by
  refine ⟨fun more depth => renderAt_add more depth type h, ?_, ?_, flushLines_renderAt type h, ?_,
    fun depth => isFull_renderAt depth type h⟩
  · intro depth
    exact renderAt_add depth 0 type h
  · intro b c path name a hreaches ha htype comments mode variableName
    subst htype
    exact Inputs.typeLine_mem hreaches ha comments mode variableName
  · rintro place fields rfl depth
    obtain ⟨before, closing, after, hsurrounds⟩ := place.exists_surrounds depth
    obtain ⟨inside, htext⟩ := hsurrounds.object fields
    exact ⟨before, inside, closing, after, hsurrounds, htext⟩

theorem depth_indents_whole_type_volumes :
    let volumes := list (object [("id", string), ("mounts", set (object [("path", string)]))])
    volumes.IsUnbroken ∧
    (volumes.renderAt 2).toList = Text.hang 4
      "list(object(\x7b\n  id = string\n  mounts = set(object(\x7b\n    path = string\n  \x7d))\n\x7d))".toList ∧
    (∀ description, "    volumes = optional(" ++ volumes.renderAt 2 ++ ")" ∈ Inputs.resourceLines true
      (.mk [("volumes", ⟨some volumes, description, false, true, false⟩)] [] "") .multiple "servers") ∧
    (∃ before inside closing after, (∀ c ∈ closing, c = ')') ∧ (volumes.renderAt 2).toList
      = before ++ "object(\x7b".toList ++ inside ++ '\n' :: ("      \x7d)".toList ++ closing ++ after)) ∧
    Text.IsFull (volumes.renderAt 2).toList := by
  intro volumes
  have hunbroken : volumes.IsUnbroken := ⟨by decide, trivial, by decide, ⟨by decide, trivial, trivial⟩, trivial⟩
  obtain ⟨-, hhang, hdeclared, -, hcloses, hfull⟩ := depth_indents_whole_type volumes hunbroken
  refine ⟨hunbroken, ?_, ?_, ?_, hfull 2⟩
  · rw [hhang 2]
    rfl
  · intro description
    exact hdeclared (.mk [("volumes", ⟨some volumes, description, false, true, false⟩)] [] "") _ [] "volumes" _
      (.here _) List.mem_cons_self rfl true .multiple "servers"
  · obtain ⟨before, inside, closing, after, hsurrounds, htext⟩ :=
      hcloses (.list (.field [("id", string)] "mounts" (.set .here) [])) [("path", string)] rfl 2
    exact ⟨before, inside, closing, after, hsurrounds.closing, htext⟩

end AttributeType

end ModuleScaffold
