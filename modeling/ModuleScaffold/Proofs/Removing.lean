import ModuleScaffold.Proofs.Descriptions
import ModuleScaffold.Proofs.Layout.Repeating
import ModuleScaffold.Proofs.Refinement.Inside

/-! # What the removal of attributes leaves of a text

Every attribute of a resource is written as a piece of its own, in the body and in the inputs, and what stands between
the pieces depends on no attribute. Main statement: the texts of a resource without some of its attributes are the texts
that it had before, with the pieces of these attributes cut out. -/

namespace ModuleScaffold

/-! ## Blocks without some attributes -/

namespace Block

/-- The block without some of its attributes. The blocks nested in it keep theirs. -/
def withoutAttributes (names : Set String) [DecidablePred (· ∈ names)] (b : Block) : Block :=
  b.withAttributes (b.attributes.filter fun e => e.1 ∉ names)

variable (names : Set String) [DecidablePred (· ∈ names)] (b : Block)

theorem items_withoutAttributes :
    (b.withoutAttributes names).items = b.items.filter fun i => i.argument?.all (· ∉ names) := by
  have hfilter := b.filter_items fun name => name.all (· ∉ names)
  obtain ⟨attributes, nested, description⟩ := b
  rw [hfilter, items_eq]
  rfl

theorem isSome_argument_items :
    (b.items.filter fun i => i.argument?.isSome).Perm (b.attributes.map fun e => Item.argument e.1 e.2) := by
  have hfilter := b.filter_items Option.isSome
  simp only [Option.isSome_some, List.filter_true, Option.isSome_none, Bool.false_eq_true, if_false,
    List.append_nil] at hfilter
  rw [hfilter]
  exact List.mergeSort_perm _ _

end Block

/-- What the validator refused is taken away from the resources themselves. -/
theorem SchemaSet.dropRefused_eq_withoutAttributes (refusals : Refusals) (s : SchemaSet) :
    s.dropRefused refusals
      = s.mapBlocks fun type b => b.withoutAttributes {name | name ∈ refusedFor refusals type} := by
  unfold dropRefused Block.withoutAttributes
  simp

/-! ## Lines that are not blank -/

namespace Text

/-- Strings that make a text in which no line has a carriage return before its ending. -/
def ArePlain (ls : List String) : Prop := ∀ row ∈ lines (charsOf ls), row.getLast? ≠ some '\r'

namespace ArePlain

theorem nil : ArePlain [] := by
  intro row hrow
  cases hrow

theorem append {ls ks : List String} (hls : ArePlain ls) (hks : ArePlain ks) : ArePlain (ls ++ ks) := by
  intro row hrow
  rw [lines_charsOf_append, List.mem_append] at hrow
  exact hrow.elim (hls row) (hks row)

theorem line {l : String} (h : IsLine l.toList) : ArePlain [l] := by
  intro row hrow
  rw [lines_charsOf_singleton h, List.mem_singleton] at hrow
  rw [hrow]
  exact h.2

theorem unquoted {ls : List String} (h : ∀ l ∈ ls, Inputs.isUnquoted l.toList = true) : ArePlain ls := by
  have hreturn : '\r' ∉ charsOf ls := Inputs.not_mem_of_isUnquoted (Inputs.isUnquoted_charsOf h) (by decide)
  intro row hrow hlast
  exact hreturn (mem_of_mem_lines hrow (List.mem_of_getLast? hlast)).1

end ArePlain

end Text

namespace Layout

/-- The lines of a text that are not blank. -/
def rowsOf (s : String) : List (List Char) := fullLines (Text.lines s.toList)

theorem fullLines_map_withoutReturn (ls : List (List Char)) :
    fullLines (ls.map Text.withoutReturn) = (fullLines ls).map Text.withoutReturn := by
  rw [fullLines_eq_filter, fullLines_eq_filter, List.filter_map]
  congr 1
  apply List.filter_congr
  intro line _
  rw [Function.comp_apply, Text.trim_withoutReturn]

theorem rowsOf_tidy (s : String) : rowsOf (tidy s) = (rowsOf s).map Text.withoutReturn := by
  unfold rowsOf
  rw [toList_tidy, Text.lines_unlines_eq fun _ hrow => not_feed_of_mem_arranged hrow, fullLines_map_withoutReturn,
    fullLines_arranged]

theorem rowsOf_append (ls ks : List String) :
    rowsOf (Text.ofLines (ls ++ ks)) = rowsOf (Text.ofLines ls) ++ rowsOf (Text.ofLines ks) := by
  unfold rowsOf
  rw [Text.toList_ofLines, Text.toList_ofLines, Text.toList_ofLines, Text.lines_charsOf_append, fullLines_append]

theorem rowsOf_tidy_ofLines {ls : List String} (h : Text.ArePlain ls) :
    rowsOf (tidy (Text.ofLines ls)) = rowsOf (Text.ofLines ls) := by
  have hself : ∀ row ∈ rowsOf (Text.ofLines ls), Text.withoutReturn row = id row := by
    intro row hrow
    rw [rowsOf, Text.toList_ofLines] at hrow
    exact (Text.withoutReturn_eq_self_iff row).mpr (h row (mem_fullLines.mp hrow).1)
  rw [rowsOf_tidy, List.map_congr_left hself, List.map_id]

end Layout

/-! ## Pieces of a text -/

/-- Lines of a resource that stand together, with the attribute that they are written for. -/
structure Piece where
  /-- The attribute of the resource itself. What is written for anything else has none. -/
  argument : Option String
  lines : List String

namespace Piece

/-- The pieces without those of some attributes. -/
def cut (names : Set String) [DecidablePred (· ∈ names)] (ps : List Piece) : List Piece :=
  ps.filter fun p => p.argument.all (· ∉ names)

def text (p : Piece) : String := Text.ofLines p.lines

/-- A text that is made of pieces, also in its layout: this has the lines of the pieces that are not blank. -/
structure Make (ps : List Piece) (s : String) : Prop where
  text : s = String.join (ps.map text)
  rows : Layout.rowsOf (Layout.tidy s) = ps.flatMap fun p => Layout.rowsOf (Layout.tidy p.text)

theorem join_text (ps : List Piece) : String.join (ps.map text) = Text.ofLines (ps.flatMap lines) := by
  rw [← String.toList_inj, String.toList_join, Text.toList_ofLines]
  induction ps with
  | nil => rfl
  | cons p ps ih => rw [List.flatMap_cons, Text.charsOf_append, ← ih, ← Text.toList_ofLines]; simp [text]

theorem make_ofLines {ps : List Piece} {ls : List String} (h : ls = ps.flatMap lines) : Make ps (Text.ofLines ls) := by
  subst h
  refine ⟨(join_text ps).symm, ?_⟩
  induction ps with
  | nil => decide
  | cons p ps ih =>
    rw [Layout.rowsOf_tidy] at ih ⊢
    rw [List.flatMap_cons, Layout.rowsOf_append, List.map_append, ih, List.flatMap_cons, Layout.rowsOf_tidy]
    rfl

/-- The pieces of a resource whose items are written one by one between other lines. -/
def between (before after : List String) (write : Item → List String) (b : Block) : List Piece :=
  ⟨none, before⟩ :: b.items.map (fun i => ⟨i.argument?, write i⟩) ++ [⟨none, after⟩]

variable {names : Set String} [DecidablePred (· ∈ names)]

theorem between_withoutAttributes (before after : List String) (write : Item → List String) (b : Block) :
    between before after write (b.withoutAttributes names) = cut names (between before after write b) := by
  unfold between cut
  rw [Block.items_withoutAttributes, List.cons_append, List.cons_append, List.filter_cons_of_pos rfl,
    List.filter_append, List.filter_map]
  rfl

theorem flatMap_lines_between (before after : List String) (write : Item → List String) (b : Block) :
    (between before after write b).flatMap lines = before ++ b.items.flatMap write ++ after := by
  simp [between, List.flatMap_map]

theorem isSome_argument_between (before after : List String) (write : Item → List String) (b : Block) :
    ((between before after write b).filter fun p => p.argument.isSome).Perm
      (b.attributes.map fun e => ⟨some e.1, write (.argument e.1 e.2)⟩) := by
  have hitems := (Block.isSome_argument_items b).map fun i => (⟨i.argument?, write i⟩ : Piece)
  unfold between
  rw [List.cons_append, List.filter_cons_of_neg (by simp), List.filter_append, List.filter_map,
    List.filter_cons_of_neg (by simp), List.filter_nil, List.append_nil]
  rw [List.map_map] at hitems
  exact hitems

end Piece

/-! ## The pieces of a resource -/

namespace Body

/-- What is written for an attribute in the body of a resource: its assignment. -/
def argumentPiece (mode : Mode) (name : String) : Piece := ⟨some name, [argumentLine mode name]⟩

theorem arePlain_argumentPiece (mode : Mode) {name : String} (hn : Text.isIdentifier name.toList = true) :
    Text.ArePlain (argumentPiece mode name).lines :=
  .line (isLine_lineAt 1 (isNamed_rootOf mode) hn).1

/-- The pieces of the body of a resource. -/
def pieces (type : String) (block : Block) (mode : Mode) (variableName : String) : List Piece :=
  Piece.between
    (headerLine type :: match mode with
      | .single => []
      | .multiple => ["  for_each = " ++ iteration variableName])
    ["\x7d", ""] (fun i => lines 1 (statements (rootOf mode) [i])) block

theorem flatMap_lines_pieces (type : String) (block : Block) (mode : Mode) (variableName : String) :
    resourceLines type block mode variableName = (pieces type block mode variableName).flatMap Piece.lines := by
  unfold resourceLines pieces
  rw [Piece.flatMap_lines_between, lines_statements]
  rfl

theorem pieces_withoutAttributes (type : String) (block : Block) (mode : Mode) (variableName : String)
    (names : Set String) [DecidablePred (· ∈ names)] :
    pieces type (block.withoutAttributes names) mode variableName
      = Piece.cut names (pieces type block mode variableName) :=
  Piece.between_withoutAttributes _ _ _ block

theorem argument_pieces (type : String) (block : Block) (mode : Mode) (variableName : String) :
    ((pieces type block mode variableName).filter fun p => p.argument.isSome).Perm
      (block.attributes.map fun e => argumentPiece mode e.1) := by
  unfold pieces
  refine (Piece.isSome_argument_between _ _ _ block).trans ?_
  simp only [statements, lines]
  exact .refl _

end Body

namespace Inputs

theorem fieldLines_fields (comments : Bool) (depth : Nat) (items : List Item) :
    fieldLines depth (fields comments items) = items.flatMap fun i => fieldLines depth (fields comments [i]) := by
  induction items with
  | nil => rw [fields, fieldLines]; rfl
  | cons i rest ih =>
    rw [List.flatMap_cons, ← ih]
    rcases i with ⟨name, a⟩ | ⟨name, nesting, _ | ⟨description, items⟩⟩
    · simp [fields, fieldLines]
    · simp [fields, fieldLines]
    · cases hmode : Holder.ofMode? nesting.mode <;> simp [fields, fieldLines, hmode]

/-- What is written for an attribute in the inputs of a resource, with the comment above it: the whole variable for a
single resource, and for a collection the field of its object. -/
def argumentPiece (comments : Bool) (mode : Mode) (name : String) (a : Attribute) : Piece :=
  ⟨some name, match mode with
    | .single => (variableOf comments (.argument name a)).lines
    | .multiple => commentLines (AttributeType.indent 2) (commentFor comments a.description)
      ++ [valueLine 2 name a.type a.required]⟩

theorem arePlain_commentLines (wanted : Bool) (description : String) (pad : String) (hpad : Reading.IsPad pad.toList) :
    Text.ArePlain (commentLines pad (commentFor wanted description)) := by
  unfold commentFor
  split
  · refine .line ?_
    rw [toList_commentLine]
    exact hpad.isLine (by simp) (isLine_comment description)
  · exact .nil

theorem arePlain_argumentPiece (comments : Bool) (mode : Mode) {name : String} {a : Attribute}
    (hn : Text.isIdentifier name.toList = true) (ha : a.isNamed = true) :
    Text.ArePlain (argumentPiece comments mode name a).lines := by
  unfold argumentPiece
  cases mode with
  | single =>
    have hheader : Text.ArePlain [header name] := .line (isLine_header (not_mem_of_isIdentifier hn))
    have hdescription : ∀ text, Text.ArePlain (descriptionLines text)
      | none => .nil
      | some text => .line (isLine_descriptionLine text)
    simp only [variableOf, lines_value]
    exact (((arePlain_commentLines comments a.description "" .nil).append hheader).append (hdescription _)).append
      (.unquoted (isUnquoted_valueTail a.optional ha))
  | multiple =>
    have hvalue := isUnquoted_valueLine 2 a.required hn ha
    exact (arePlain_commentLines comments a.description _ (Reading.isPad_indent 2)).append
      (.unquoted (List.forall_mem_singleton.mpr hvalue))

/-- The pieces of the inputs of a resource. -/
def pieces (comments : Bool) (block : Block) (mode : Mode) (variableName : String) : List Piece :=
  match mode with
  | .single => Piece.between [] [] (fun i => (variableOf comments i).lines) block
  | .multiple =>
    Piece.between [header variableName, "  type = " ++ Holder.list.opening]
      (["  " ++ Holder.list.closing] ++ defaultLines true ++ ["\x7d", ""])
      (fun i => fieldLines 2 (fields comments [i])) block

theorem flatMap_lines_pieces (comments : Bool) (block : Block) (mode : Mode) (variableName : String) :
    resourceLines comments block mode variableName
      = (pieces comments block mode variableName).flatMap Piece.lines := by
  unfold resourceLines pieces
  cases mode with
  | single => simp [variablesOf, Piece.flatMap_lines_between, List.flatMap_map]
  | multiple =>
    simp only [variablesOf, Piece.flatMap_lines_between, ← fieldLines_fields, List.flatMap_singleton, Variable.lines,
      List.append_assoc]

theorem pieces_withoutAttributes (comments : Bool) (block : Block) (mode : Mode) (variableName : String)
    (names : Set String) [DecidablePred (· ∈ names)] :
    pieces comments (block.withoutAttributes names) mode variableName
      = Piece.cut names (pieces comments block mode variableName) := by
  cases mode with
  | single => exact Piece.between_withoutAttributes _ _ _ block
  | multiple => exact Piece.between_withoutAttributes _ _ _ block

theorem argument_pieces (comments : Bool) (block : Block) (mode : Mode) (variableName : String) :
    ((pieces comments block mode variableName).filter fun p => p.argument.isSome).Perm
      (block.attributes.map fun e => argumentPiece comments mode e.1 e.2) := by
  unfold pieces
  cases mode with
  | single => exact Piece.isSome_argument_between _ _ _ block
  | multiple =>
    refine (Piece.isSome_argument_between _ _ _ block).trans ?_
    simp only [fields, fieldLines_value, fieldLines, List.append_nil]
    exact .refl _

end Inputs

/-! ## Resources without some attributes -/

/-- A resource without some of its attributes is written as before, apart from the pieces of these attributes, of which
there is one for each: its assignment in the body, and its field or variable with the comment in the inputs. The texts
are made of the other pieces in the same order, whatever these hold. After the layout they have the same lines as before,
apart from blank ones and from those of the pieces that are gone, which the layout keeps as they are written. -/
theorem removal_cuts_pieces (comments : Bool) (type : String) (b : Block) (mode : Mode) (variableName : String)
    (hb : b.isNamed = true) (names : Set String) [DecidablePred (· ∈ names)] :
    let body := Body.pieces type b mode variableName
    let inputs := Inputs.pieces comments b mode variableName
    (body.filter fun p => p.argument.isSome).Perm (b.attributes.map fun e => Body.argumentPiece mode e.1) ∧
    (inputs.filter fun p => p.argument.isSome).Perm
      (b.attributes.map fun e => Inputs.argumentPiece comments mode e.1 e.2) ∧
    Piece.Make body (Text.ofLines (Body.resourceLines type b mode variableName)) ∧
    Piece.Make (Piece.cut names body)
      (Text.ofLines (Body.resourceLines type (b.withoutAttributes names) mode variableName)) ∧
    Piece.Make inputs (Text.ofLines (Inputs.resourceLines comments b mode variableName)) ∧
    Piece.Make (Piece.cut names inputs)
      (Text.ofLines (Inputs.resourceLines comments (b.withoutAttributes names) mode variableName)) ∧
    ∀ p ∈ body ++ inputs, p.argument.isSome = true →
      Layout.rowsOf (Layout.tidy p.text) = Layout.rowsOf p.text := by
  intro body inputs
  have hbody := Body.argument_pieces type b mode variableName
  have hinputs := Inputs.argument_pieces comments b mode variableName
  refine ⟨hbody, hinputs, Piece.make_ofLines (Body.flatMap_lines_pieces _ _ _ _),
    Piece.make_ofLines ?cutBody, Piece.make_ofLines (Inputs.flatMap_lines_pieces _ _ _ _),
    Piece.make_ofLines ?cutInputs, ?kept⟩
  case cutBody => rw [Body.flatMap_lines_pieces, Body.pieces_withoutAttributes]
  case cutInputs => rw [Inputs.flatMap_lines_pieces, Inputs.pieces_withoutAttributes]
  case kept =>
    intro p hp hargument
    apply Layout.rowsOf_tidy_ofLines
    rcases List.mem_append.mp hp with hp | hp
    · obtain ⟨⟨name, a⟩, he, rfl⟩ := List.mem_map.mp (hbody.subset (List.mem_filter.mpr ⟨hp, hargument⟩))
      exact Body.arePlain_argumentPiece mode (Block.isNamed_attribute hb he).1
    · obtain ⟨⟨name, a⟩, he, rfl⟩ := List.mem_map.mp (hinputs.subset (List.mem_filter.mpr ⟨hp, hargument⟩))
      have hnamed := Block.isNamed_attribute hb he
      exact Inputs.arePlain_argumentPiece comments mode hnamed.1 hnamed.2

open Refinement (mounts)

/-- The attribute of the resource goes, those of this name inside its nested blocks stay. -/
example : Body.resourceLines "vm" (mounts.withoutAttributes {name | name = "size"}) .single "vms"
    = ["resource \"vm\" \"this\" \x7b",
      "", "  dynamic \"disk\" \x7b",
      "    for_each = can(coalesce(var.disk)) ? flatten([var.disk]) : []",
      "    content \x7b",
      "", "      dynamic \"mount\" \x7b",
      "        for_each = can(coalesce(disk.value.mount)) ? flatten([disk.value.mount]) : []",
      "        content \x7b",
      "          path = mount.value.path",
      "          size = mount.value.size",
      "        \x7d", "      \x7d", "",
      "      size = disk.value.size",
      "    \x7d", "  \x7d", "",
      "\x7d", ""] := by
  unfold Body.resourceLines
  rw [Block.items_withoutAttributes]
  simp only [mounts, Block.items, nestedItems, Item.sort_eq_insertionSort, List.map_cons, List.map_nil]
  simp [List.insertionSort, List.orderedInsert, Item.before, Item.name, Item.argument?, Body.statements, Body.lines,
    Body.rootOf, Body.Root.text, Body.Reference.text, NestingMode.isSupported, AttributeType.indent]

theorem removal_cuts_pieces_mounts :
    mounts.isNamed = true ∧
    Piece.Make (Piece.cut {name | name = "size"} (Body.pieces "vm" mounts .single "vms"))
      (Text.ofLines (Body.resourceLines "vm" (mounts.withoutAttributes {name | name = "size"}) .single "vms")) ∧
    Piece.Make (Piece.cut {name | name = "size"} (Inputs.pieces true mounts .single "vms"))
      (Text.ofLines (Inputs.resourceLines true (mounts.withoutAttributes {name | name = "size"}) .single "vms")) := by
  have hb : mounts.isNamed = true := by decide
  obtain ⟨-, -, -, hbody, -, hinputs, -⟩ :=
    removal_cuts_pieces true "vm" mounts .single "vms" hb {name | name = "size"}
  exact ⟨hb, hbody, hinputs⟩

end ModuleScaffold
