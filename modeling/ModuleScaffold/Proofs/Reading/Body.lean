import ModuleScaffold.Body
import ModuleScaffold.Proofs.Names
import ModuleScaffold.Proofs.Outline
import ModuleScaffold.Proofs.Reading.Part

/-! # The body of a resource, read back

The statements of a resource as they stand in its text: what is assigned to which name, and which dynamic blocks
hold what. Main statement: the text of a resource reads back as the statements that it was written from. -/

namespace ModuleScaffold.Body

open Reading (Part Reads)

/-- A statement as it stands in a file, with the expressions as texts. -/
inductive Entry where
  | assign (name value : String)
  | dynamic (label guard : String) (content : List Entry)

namespace Entry

/-- The statements in the parts of a body. A dynamic block holds what it repeats for and its content. -/
def ofParts : List Part → Option (List Entry)
  | [] => some []
  | .line text :: rest =>
    match Reading.assignment? text, ofParts rest with
    | some (name, value), some entries => some (.assign name value :: entries)
    | _, _ => none
  | .group opening [.line first, .group second inner] :: rest =>
    match Reading.label? "dynamic" opening, Reading.assignment? first, ofParts inner, ofParts rest with
    | some label, some (key, guard), some content, some entries =>
      if key = "for_each" ∧ second = "content \x7b".toList then some (.dynamic label guard content :: entries)
      else none
    | _, _, _, _ => none
  | .group _ _ :: _ => none

def outlines : List Entry → List Outline
  | [] => []
  | .assign name _ :: rest => .argument name :: outlines rest
  | .dynamic label _ content :: rest => .block label (outlines content) :: outlines rest

def guardOf (source : String) : String :=
  "can(coalesce(" ++ source ++ ")) ? flatten([" ++ source ++ "]) : []"

def ofStatements : List Statement → List Entry
  | [] => []
  | .assign name source :: rest => .assign name source.text :: ofStatements rest
  | .dynamic label source content :: rest =>
    .dynamic label (guardOf source.text) (ofStatements content) :: ofStatements rest
  | .skipped _ _ _ :: rest => ofStatements rest

theorem outlines_ofStatements (root : Root) (items : List Item) :
    outlines (ofStatements (statements root items)) = Item.outlines items := by
  induction root, items using statements.induct with
  | case1 root => simp [statements, ofStatements, outlines, Item.outlines]
  | case2 root name a rest ih => rw [statements, ofStatements, outlines, Item.outlines, ih]
  | case3 root name nesting rest ih => rw [statements, ofStatements, Item.outlines, ih]
  | case4 root name nesting description items rest ihi ih =>
    rw [statements, Item.outlines_block]
    split
    · rw [ofStatements, outlines, ihi, ih]
    · rw [ofStatements, ih]

end Entry

/-- The statements of the one resource in a file. With multiple mode they follow what the resource itself
repeats for. -/
def read (mode : Mode) (s : String) : Option (List Entry) :=
  match Reading.parts s, mode with
  | some [.group header ps], .single =>
    if (Reading.label? "resource" header).isSome then Entry.ofParts ps else none
  | some [.group header (.line iteration :: ps)], .multiple =>
    if (Reading.label? "resource" header).isSome ∧ (Reading.assignment? iteration).any (·.1 = "for_each") then
      Entry.ofParts ps
    else none
  | _, _ => none

/-! ## References and guards -/

def Root.isNamed : Root → Bool
  | inputs | element => true
  | block label => Text.isIdentifier label.toList

theorem isNamed_rootOf (mode : Mode) : (rootOf mode).isNamed = true := by cases mode <;> rfl

theorem Root.isPath_text (root : Root) (h : root.isNamed = true) : Reading.IsPath root.text.toList := by
  cases root with
  | inputs => exact .of_isName (.of_isIdentifier (by decide))
  | element =>
    have heach : Text.IsName ['e', 'a', 'c', 'h'] := .of_isIdentifier (by decide)
    have hvalue : Text.IsName ['v', 'a', 'l', 'u', 'e'] := .of_isIdentifier (by decide)
    exact (Reading.IsPath.of_isName heach).append_name hvalue
  | block label =>
    have hvalue : Text.IsName ['v', 'a', 'l', 'u', 'e'] := .of_isIdentifier (by decide)
    rw [Root.text, String.toList_append]
    exact (Reading.IsPath.of_isName (.of_isIdentifier h)).append_name hvalue

theorem Reference.isPath_text (root : Root) (name : String) (hr : root.isNamed = true)
    (hn : Text.isIdentifier name.toList = true) : Reading.IsPath (Reference.text ⟨root, name⟩).toList := by
  rw [Reference.text, String.toList_append, String.toList_append, List.append_assoc]
  exact (root.isPath_text hr).append_name (.of_isIdentifier hn)

theorem toList_guardOf (source : String) :
    (Entry.guardOf source).toList
      = "can(coalesce(".toList ++ (source.toList ++ (")) ? flatten([".toList ++ (source.toList ++ "]) : []".toList))) := by
  unfold Entry.guardOf
  simp only [String.toList_append, List.append_assoc]

theorem getLast?_guardOf (source : String) : (Entry.guardOf source).toList.getLast? = some ']' := by
  rw [toList_guardOf]
  simp [List.getLast?_append, List.getLast?_cons]

theorem isTrimmed_guardOf (source : String) : Reading.IsTrimmed (Entry.guardOf source).toList := by
  have hhead : (Entry.guardOf source).toList.head? = some 'c' := by
    rw [toList_guardOf]
    rfl
  exact .of_ends hhead (getLast?_guardOf source) (by decide) (by decide)

theorem isLine_guardOf (source : String) (h : '\n' ∉ source.toList) :
    Text.IsLine (Entry.guardOf source).toList := by
  constructor
  · rw [toList_guardOf]
    simp [h]
  · rw [getLast?_guardOf]
    simp

/-! ## What is written is read back -/

/-- The text of a dynamic block: what opens and closes its two braces stands around its content. -/
def dynamicText (pad source name content : List Char) : List Char :=
  pad ++ Reading.blockOpening "dynamic" name [' ', '\x7b'] ++ ['\n']
    ++ (pad ++ [' ', ' '] ++ Reading.assigning "for_each".toList source ++ ['\n']
      ++ (pad ++ [' ', ' '] ++ "content \x7b".toList ++ ['\n'] ++ content
        ++ (pad ++ [' ', ' '] ++ ['\x7d'] ++ ['\n'])))
    ++ (pad ++ ['\x7d'] ++ ['\n'])

theorem charsOf_dynamic (depth : Nat) (label : String) (source : Reference) (content rest : List Statement) :
    Text.charsOf (lines depth (.dynamic label source content :: rest))
      = ['\n'] ++ (dynamicText (AttributeType.indent depth).toList (Entry.guardOf source.text).toList label.toList
          (Text.charsOf (lines (depth + 2) content)) ++ (['\n'] ++ Text.charsOf (lines depth rest))) := by
  rw [lines, dynamicText, toList_guardOf]
  simp only [Text.charsOf_cons, Text.charsOf_append, String.toList_append, List.append_assoc,
    Reading.assigning, Reading.blockOpening, List.cons_append, List.nil_append]
  simp

def dynamicPart (source name : List Char) (inner : List Part) : Part :=
  .group (Reading.blockOpening "dynamic" name [' ', '\x7b'])
    [.line (Reading.assigning "for_each".toList source), .group "content \x7b".toList inner]

theorem reads_dynamic (depth : Nat) (source : String) {name content : List Char} {inner : List Part}
    (hn : Text.IsName name) (hs : '\n' ∉ source.toList) (hi : Reads content inner) :
    Reads (dynamicText (AttributeType.indent depth).toList (Entry.guardOf source).toList name content)
      [dynamicPart (Entry.guardOf source).toList name inner] := by
  have hpad := Reading.isPad_indent depth
  have hpad' := hpad.append Reading.isPad_two
  have hne := (isTrimmed_guardOf source).ne_nil
  have hline := Reads.line hpad'
    (Reading.isWorded_assigning (.of_isIdentifier (by decide) : Text.IsName "for_each".toList) hne
      (isLine_guardOf source hs))
    (by rw [Reading.getLast?_assigning hne, getLast?_guardOf]; decide)
  have hword : Reading.IsWorded "content \x7b".toList := ⟨⟨by decide, by decide⟩, 'c', rfl, by decide⟩
  have hcontent := Reads.group hpad' hword rfl hi hpad' .brace
  have hopening := Reading.isWorded_blockOpening "dynamic" [' ', '\x7b'] (.of_isIdentifier (by decide)) (hn.not_mem '\n' (by decide)) (by simp) ⟨by decide, by decide⟩
  exact Reads.group hpad hopening (Reading.getLast?_blockOpening "dynamic" name (by simp))
    (hline.append hcontent) hpad .brace

theorem ofParts_dynamicPart (source name : String) (hn : Text.IsName name.toList) {inner rest : List Part}
    {content entries : List Entry} (hi : Entry.ofParts inner = some content)
    (hr : Entry.ofParts rest = some entries) :
    Entry.ofParts (dynamicPart (Entry.guardOf source).toList name.toList inner :: rest)
      = some (.dynamic name (Entry.guardOf source) content :: entries) := by
  have hkey : Reading.assignment? (Reading.assigning "for_each".toList (Entry.guardOf source).toList)
      = some ("for_each", Entry.guardOf source) := by
    rw [Reading.assignment?_assigning (.of_isIdentifier (by decide)) (isTrimmed_guardOf source)]
    simp
  have hlabel := Reading.label?_blockOpening "dynamic" name.toList [' ', '\x7b'] (hn.not_mem '"' (by decide))
  rw [dynamicPart, Entry.ofParts, hlabel, hkey, hi, hr]
  simp

theorem reads_lines (root : Root) (items : List Item) (hr : root.isNamed = true)
    (hi : Item.areNamed items = true) (depth : Nat) :
    ∃ ps, Reads (Text.charsOf (lines depth (statements root items))) ps ∧
      Entry.ofParts ps = some (Entry.ofStatements (statements root items)) := by
  -- The content of a dynamic block stands two levels deeper, so the claim is for every depth.
  induction root, items using statements.induct generalizing depth with
  | case1 root =>
    refine ⟨[], ?_, ?_⟩
    · rw [statements, lines]
      exact Reads.nil
    · rw [statements, Entry.ofStatements, Entry.ofParts]
  | case2 root name a rest ih =>
    simp only [Item.areNamed, Bool.and_eq_true] at hi
    obtain ⟨⟨hname, -⟩, hrest⟩ := hi
    obtain ⟨ps, hreads, hparts⟩ := ih hr hrest depth
    have hn : Text.IsName name.toList := .of_isIdentifier hname
    have hsource := Reference.isPath_text root name hr hname
    refine ⟨.line (Reading.assigning name.toList (Reference.text ⟨root, name⟩).toList) :: ps, ?_, ?_⟩
    · rw [statements, lines, Text.charsOf_cons]
      have hline := Reads.line (Reading.isPad_indent depth)
        (Reading.isWorded_assigning hn hsource.ne_nil hsource.isLine)
        (by rw [Reading.getLast?_assigning hsource.ne_nil]; exact hsource.getLast?_ne _ (by decide) (by decide))
      simpa [Reading.assigning] using hline.append hreads
    · rw [statements, Entry.ofStatements, Entry.ofParts,
        Reading.assignment?_assigning hn hsource.isTrimmed, hparts]
      simp
  | case3 root name nesting rest ih =>
    simp only [Item.areNamed, Bool.and_eq_true] at hi
    rw [statements, lines, Entry.ofStatements]
    exact ih hr hi.2 depth
  | case4 root name nesting description items rest ihi ih =>
    simp only [Item.areNamed, Bool.and_eq_true] at hi
    obtain ⟨⟨hname, hitems⟩, hrest⟩ := hi
    obtain ⟨ps, hreads, hparts⟩ := ih hr hrest depth
    rw [statements]
    split
    · obtain ⟨inner, hinner, hcontent⟩ := ihi hname hitems (depth + 2)
      have hn : Text.IsName name.toList := .of_isIdentifier hname
      have hsource := Reference.isPath_text root name hr hname
      refine ⟨dynamicPart (Entry.guardOf (Reference.text ⟨root, name⟩)).toList name.toList inner :: ps, ?_, ?_⟩
      · rw [charsOf_dynamic]
        exact Reads.blank.append
          ((reads_dynamic depth _ hn hsource.isLine.1 hinner).append (Reads.blank.append hreads))
      · rw [Entry.ofStatements]
        exact ofParts_dynamicPart _ name hn hcontent hparts
    · rw [lines, Entry.ofStatements]
      exact ⟨ps, hreads, hparts⟩

/-! ## The whole resource -/

theorem toList_iteration (variableName : String) :
    (iteration variableName).toList
      = "\x7b for i in coalesce(var.".toList ++ (variableName.toList ++ ", []) : i.name => i \x7d".toList) := by
  unfold iteration
  simp only [String.toList_append, List.append_assoc]

theorem getLast?_iteration (variableName : String) :
    (iteration variableName).toList.getLast? = some '\x7d' := by
  rw [toList_iteration]
  simp [List.getLast?_append, List.getLast?_cons]

theorem isTrimmed_iteration (variableName : String) : Reading.IsTrimmed (iteration variableName).toList := by
  have hhead : (iteration variableName).toList.head? = some '\x7b' := by
    rw [toList_iteration]
    rfl
  exact .of_ends hhead (getLast?_iteration variableName) (by decide) (by decide)

theorem isLine_iteration (variableName : String) (h : '\n' ∉ variableName.toList) :
    Text.IsLine (iteration variableName).toList := by
  constructor
  · rw [toList_iteration]
    simp [h]
  · rw [getLast?_iteration]
    simp

/-- The text of a resource: its lines stand between the line that opens it and the one that closes it. -/
def resourceText (type inside : List Char) : List Char :=
  [] ++ Reading.blockOpening "resource" type " \"this\" \x7b".toList ++ ['\n'] ++ inside
    ++ ([] ++ ['\x7d'] ++ ['\n']) ++ ['\n']

def iterationText (variableName : String) : List Char :=
  [' ', ' '] ++ Reading.assigning "for_each".toList (iteration variableName).toList ++ ['\n']

theorem charsOf_resourceLines (type : String) (block : Block) (mode : Mode) (variableName : String) :
    Text.charsOf (resourceLines type block mode variableName)
      = resourceText type.toList ((if mode = .multiple then iterationText variableName else [])
          ++ Text.charsOf (lines 1 (statements (rootOf mode) block.items))) := by
  unfold resourceLines resourceText iterationText
  cases mode <;>
    simp only [Text.charsOf_cons, Text.charsOf_append, Text.charsOf_nil, String.toList_append, List.append_assoc,
      Reading.assigning, Reading.blockOpening, List.cons_append, List.nil_append, if_true, if_false,
      reduceCtorEq] <;>
    simp

theorem reads_resource {type inside : List Char} {ps : List Part} (ht : Text.IsName type)
    (hi : Reads inside ps) :
    Reads (resourceText type inside)
      [.group (Reading.blockOpening "resource" type " \"this\" \x7b".toList) ps] := by
  have hopening := Reading.isWorded_blockOpening "resource" " \"this\" \x7b".toList
    (.of_isIdentifier (by decide)) (ht.not_mem '\n' (by decide)) (by decide) ⟨by decide, by decide⟩
  exact (Reads.group .nil hopening (Reading.getLast?_blockOpening "resource" type (by decide)) hi .nil
    .brace).append Reads.blank

theorem reads_iteration (variableName : String) (h : '\n' ∉ variableName.toList) :
    Reads (iterationText variableName)
      [.line (Reading.assigning "for_each".toList (iteration variableName).toList)] := by
  have hne := (isTrimmed_iteration variableName).ne_nil
  apply Reads.line (by intro c hc; simpa using hc)
  · exact Reading.isWorded_assigning (.of_isIdentifier (by decide)) hne (isLine_iteration variableName h)
  · rw [Reading.getLast?_assigning hne, getLast?_iteration]
    decide

/-- The text of a resource reads back as its statements. -/
theorem read_resourceLines (type : String) (block : Block) (mode : Mode) (variableName : String)
    (ht : Text.isIdentifier type.toList = true) (hb : block.isNamed = true)
    (hv : '\n' ∉ variableName.toList) :
    read mode (Text.ofLines (resourceLines type block mode variableName))
      = some (Entry.ofStatements (statements (rootOf mode) block.items)) := by
  have hname : Text.IsName type.toList := .of_isIdentifier ht
  have hlabel := Reading.label?_blockOpening "resource" type.toList " \"this\" \x7b".toList
    (hname.not_mem '"' (by decide))
  obtain ⟨ps, hreads, hparts⟩ := reads_lines (rootOf mode) block.items (isNamed_rootOf mode)
    (by rw [areNamed_items]; exact hb) 1
  unfold read
  cases mode with
  | single =>
    have hread := reads_resource hname (Reads.nil.append hreads)
    rw [Reads.parts (by rw [Text.toList_ofLines, charsOf_resourceLines]; exact hread)]
    simp only [hlabel]
    exact hparts
  | multiple =>
    have hread := reads_resource hname ((reads_iteration variableName hv).append hreads)
    have hkey := Reading.assignment?_assigning (.of_isIdentifier (by decide) : Text.IsName "for_each".toList)
      (isTrimmed_iteration variableName)
    rw [Reads.parts (by rw [Text.toList_ofLines, charsOf_resourceLines]; exact hread)]
    simp only [hlabel, hkey, List.singleton_append]
    simpa using hparts

end ModuleScaffold.Body
