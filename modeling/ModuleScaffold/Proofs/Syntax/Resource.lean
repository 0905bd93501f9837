import ModuleScaffold.Proofs.Reading.Body
import ModuleScaffold.Proofs.Syntax.Lines
import ModuleScaffold.Proofs.Writable

/-! # Resources that parse

Main statement: the text of a resource is a block of the configuration language, whatever is nested in it, and needs
as many brackets as its deepest expression stands in. -/

namespace ModuleScaffold.Body

open Hcl.Syntax

/-! ## Expressions of a resource -/

def Root.isFree : Root → Bool
  | inputs | element => true
  | block label => Text.isFree label

theorem isFree_rootOf (mode : Mode) : (rootOf mode).isFree = true := by cases mode <;> rfl

theorem Root.isNamed_of_isFree {root : Root} (h : root.isFree = true) : root.isNamed = true := by
  cases root with
  | inputs | element => rfl
  | block label => exact Text.isIdentifier_of_isFree h

/-- The first name of a root and those behind it. -/
def Root.names : Root → List Char × List (List Char)
  | inputs => ("var".toList, [])
  | element => ("each".toList, ["value".toList])
  | block label => (label.toList, ["value".toList])

theorem toList_reference (root : Root) (name : String) :
    (Reference.text ⟨root, name⟩).toList = root.names.1 ++ accessText (root.names.2 ++ [name.toList]) := by
  cases root <;> simp [Reference.text, Root.text, Root.names, accessText]

theorem Root.isIdentifier_names {root : Root} (h : root.isFree = true) :
    Text.isIdentifier root.names.1 = true ∧ ∀ name ∈ root.names.2, Text.isIdentifier name = true := by
  have hvalue : Text.isIdentifier "value".toList = true := by decide
  cases root with
  | inputs => exact ⟨by decide, by simp [Root.names]⟩
  | element => exact ⟨by decide, by simpa [Root.names] using hvalue⟩
  | block label => exact ⟨Text.isIdentifier_of_isFree h, by simpa [Root.names] using hvalue⟩

theorem Root.names_ne_for {root : Root} (h : root.isFree = true) : root.names.1 ≠ ['f', 'o', 'r'] := by
  cases root with
  | inputs | element => decide
  | block label => exact Text.ne_for_of_isFree h

section

variable {root : Root} {name : String}

theorem isOperand_reference (hr : root.isFree = true) (hn : Text.isFree name = true) :
    IsOperand 0 (Reference.text ⟨root, name⟩).toList := by
  rw [toList_reference]
  refine isOperand_path _ _ (Root.isIdentifier_names hr).1 fun other ho => ?_
  rcases List.mem_append.mp ho with ho | ho
  · exact (Root.isIdentifier_names hr).2 other ho
  · rw [List.mem_singleton.mp ho]
    exact Text.isIdentifier_of_isFree hn

theorem keyword?_reference (hr : root.isFree = true) {rest : List Char} (h : EndsWord rest) :
    keyword? ['f', 'o', 'r'] ((Reference.text ⟨root, name⟩).toList ++ rest) = none := by
  rw [toList_reference, List.append_assoc]
  exact keyword?_append (Root.isIdentifier_names hr).1 (by decide) (Root.names_ne_for hr) (endsWord_accessText _ h)

theorem isExpression_guard (hr : root.isFree = true) (hn : Text.isFree name = true) :
    IsExpression 2 (Entry.guardOf (Reference.text ⟨root, name⟩)).toList := by
  have hsource := (isOperand_reference hr hn).isExpression
  have htest := isTerm_call "can".toList (by decide)
    (isTerm_call "coalesce".toList (by decide) hsource.last).isExpression.last
  have hlist := isTerm_call "flatten".toList (by decide)
    (hsource.isTerm_element fun _ h => keyword?_reference hr h).isExpression.last
  have hguard := htest.isOperand.condition hlist.isExpression isTerm_noElements.isExpression
  rw [toList_guardOf]
  simpa using hguard

end

theorem isExpression_iteration {variableName : String} (hn : Text.isIdentifier variableName.toList = true) :
    IsExpression 3 (iteration variableName).toList := by
  have hvar := isOperand_path "var".toList [variableName.toList] (by decide) (by simpa using hn)
  have hcollection := isTerm_call "coalesce".toList (by decide)
    (hvar.isExpression.and isTerm_noElements.isExpression.last)
  have hkey := isOperand_path ['i'] ["name".toList] (by decide)
    (by simp only [List.mem_singleton, forall_eq]; decide)
  have hvalue := isOperand_name (by decide : Text.isIdentifier ['i'] = true)
  have hloop := isTerm_loop (by decide : Text.isIdentifier ['i'] = true) hcollection.isExpression hkey.isExpression
    hvalue.isExpression
  rw [toList_iteration]
  simpa [accessText] using hloop.isExpression

/-! ## Statements -/

/-- The brackets that stand in one another in the text of statements. The brace of a dynamic block stands around its
guard, in which there are two calls, and around the brace of its content. -/
def brackets : List Statement → Nat
  | [] => 0
  | .assign _ _ :: rest => brackets rest
  | .dynamic _ _ content :: rest => max (max 2 (brackets content + 1) + 1) (brackets rest)
  | .skipped _ _ _ :: rest => brackets rest

theorem spells_dynamic (depth : Nat) {need : Nat} {root : Root} {name : String} {content : List Char}
    {new : List (List Char)} (hr : root.isFree = true) (hn : Text.isFree name = true)
    (hc : Spells BodyReads need new content) (hnew : new.Nodup) :
    Spells BodyReads (max 2 (need + 1) + 1) [] (dynamicText (AttributeType.indent depth).toList
      (Entry.guardOf (Reference.text ⟨root, name⟩)).toList name.toList content) := by
  have hpad := Reading.isPad_indent depth
  have hpad' := hpad.append Reading.isPad_two
  have hname := Text.isIdentifier_of_isFree hn
  have hsource := Reference.isPath_text root name (Root.isNamed_of_isFree hr) hname
  have heach := Spells.attribute isSequence_body hpad' (by decide : Text.isIdentifier "for_each".toList = true)
    (by decide) (isExpression_guard hr hn) (isLine_guardOf _ hsource.isLine.1)
  have hcontent := Spells.block "content".toList [] (by decide) (by simp) hpad' hc hnew hpad'
  have hblock := Spells.block "dynamic".toList [name.toList] (by decide)
    (by simpa using Text.IsName.of_isIdentifier hname) hpad (heach.append hcontent) (by simp) hpad
  simpa [dynamicText, Reading.blockOpening, labelText] using hblock

theorem spells_lines (root : Root) (items : List Item) (hr : root.isFree = true) (hi : Item.areWritable items = true)
    (depth : Nat) :
    Spells BodyReads (brackets (statements root items)) (Item.assigned items)
      (Text.charsOf (lines depth (statements root items))) := by
  -- The content of a dynamic block stands deeper and has its own names, so the claim is for every depth.
  induction root, items using statements.induct generalizing depth with
  | case1 root =>
    rw [statements, lines, brackets]
    exact .nil isSequence_body
  | case2 root name a rest ih =>
    simp only [Item.areWritable, Bool.and_eq_true] at hi
    obtain ⟨⟨hname, -⟩, hrest⟩ := hi
    have hsource := Reference.isPath_text root name (Root.isNamed_of_isFree hr) (Text.isIdentifier_of_isFree hname)
    have hline := Spells.attribute isSequence_body (Reading.isPad_indent depth) (Text.isIdentifier_of_isFree hname)
      (Text.ne_for_of_isFree hname) (isOperand_reference hr hname).isExpression hsource.isLine
    have hall := hline.append (ih hr hrest depth)
    rw [statements, lines, Text.charsOf_cons, brackets]
    simpa [Item.assigned, Reading.assigning] using hall
  | case3 root name nesting rest ih =>
    simp only [Item.areWritable, Bool.and_eq_true] at hi
    rw [statements, lines, Item.assigned, brackets]
    exact ih hr hi.2 depth
  | case4 root name nesting description items rest ihi ih =>
    simp only [Item.areWritable, Bool.and_eq_true, decide_eq_true_eq] at hi
    obtain ⟨⟨hname, hnames, hitems⟩, hrest⟩ := hi
    have hmore := ih hr hrest depth
    rw [statements, Item.assigned]
    split
    · have hcontent := ihi hname hitems (depth + 2)
      have hblank := Spells.blank isSequence_body
      have hall := hblank.append ((spells_dynamic depth hr hname hcontent (Item.nodup_assigned hnames)).append
        (hblank.append hmore))
      rw [charsOf_dynamic, brackets]
      simpa using hall
    · rw [lines, brackets]
      exact hmore

/-! ## The whole resource -/

/-- The brackets in what a resource is repeated for: an object around a call with a list. -/
def iterationBrackets : Mode → Nat
  | .single => 0
  | .multiple => 3

/-- The brackets that stand in one another in the text of a resource. -/
def resourceBrackets (block : Block) (mode : Mode) : Nat :=
  max (iterationBrackets mode) (brackets (statements (rootOf mode) block.items)) + 1

/-- The text of a resource is a block and feeds behind it. -/
theorem spells_resourceLines {type : String} {block : Block} (mode : Mode) {variableName : String}
    (ht : Text.isIdentifier type.toList = true) (hb : block.isWritable = true)
    (hf : ∀ a ∈ block.attributes, a.1 ≠ "for_each") (hv : Text.isIdentifier variableName.toList = true) :
    Spells BodyReads (resourceBrackets block mode) []
      (Text.charsOf (resourceLines type block mode variableName)) := by
  rw [areWritable_items, Bool.and_eq_true, decide_eq_true_eq] at hb
  have hlines := spells_lines (rootOf mode) block.items (isFree_rootOf mode) hb.2 1
  have hassigned := Item.nodup_assigned hb.1
  have hfresh := Item.not_mem_assigned hf
  have hlabels : ∀ label ∈ [type.toList, "this".toList], Text.IsName label := by
    have hthis : Text.IsName "this".toList := .of_isIdentifier (by decide)
    simpa using ⟨Text.IsName.of_isIdentifier ht, hthis⟩
  have hresource : ∀ {need : Nat} {new : List (List Char)} {inside : List Char}, Spells BodyReads need new inside →
      new.Nodup → Spells BodyReads (need + 1) [] (resourceText type.toList inside) := by
    intro need new inside hi hnew
    have hblock := Spells.block "resource".toList [type.toList, "this".toList] (by decide) hlabels
      .nil hi hnew .nil
    have hall := hblock.append (Spells.blank isSequence_body)
    simpa [resourceText, Reading.blockOpening, labelText] using hall
  rw [charsOf_resourceLines, resourceBrackets]
  cases mode with
  | single =>
    rw [iterationBrackets, Nat.zero_max]
    exact hresource hlines hassigned
  | multiple =>
    have heach := Spells.attribute isSequence_body Reading.isPad_two
      (by decide : Text.isIdentifier "for_each".toList = true) (by decide) (isExpression_iteration hv)
      (isLine_iteration variableName ((Text.IsName.of_isIdentifier hv).not_mem '\n' (by decide)))
    exact hresource (heach.append hlines) (List.nodup_cons.mpr ⟨hfresh, hassigned⟩)

end ModuleScaffold.Body
