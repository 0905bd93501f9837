import ModuleScaffold.Proofs.Agreement

/-! # References mean their own declarations

A reference is looked up in the dynamic blocks around it, the innermost first, and then in what the resource is
given. Main statement: every reference in the body of a resource means the declaration of the item that it stands
for, whatever names repeat on the way to it. -/

namespace ModuleScaffold.Body

open Inputs (Declaration)

/-! ## What a reference means -/

/-- The dynamic blocks around a place, innermost first, and the names that lead to what each repeats for, where
these are known. -/
abbrev Scope := List (String × Option (List String))

/-- The names that lead on from what a resource is given. -/
def given? : Mode → List String → Option (List String)
  | .single, first :: path => if first = "var" then some path else none
  | .multiple, first :: second :: path => if first = "each" ∧ second = "value" then some path else none
  | _, _ => none

/-- The names that lead on from the element that a dynamic block has come to. -/
def element? (place : Option (List String)) : List String → Option (List String)
  | first :: path => if first = "value" then place.map (· ++ path) else none
  | [] => none

/-- The names that lead to what a reference means. -/
def resolve (mode : Mode) : Scope → List String → Option (List String)
  | [], names => given? mode names
  | (label, place) :: outer, names => if names.head? = some label then element? place names.tail else resolve mode outer names

def meaning (mode : Mode) (scope : Scope) (reference : String) : Option (List String) :=
  resolve mode scope ((Text.splitAll '.' reference.toList).map String.ofList)

/-- The two references in the expression with which a dynamic block repeats. -/
def operands? (guard : String) : Option (String × String) :=
  (Text.after? "can(coalesce(".toList guard.toList).bind fun rest =>
  (Text.splitAt? ')' rest).bind fun (tested, rest) =>
  (Text.after? ") ? flatten([".toList rest).bind fun rest =>
  (Text.splitAt? ']' rest).bind fun (repeated, rest) =>
    if rest = ") : []".toList then some (String.ofList tested, String.ofList repeated) else none

/-- A reference in a body: the labels of the blocks around the item that it stands for, the name of the item, and
what the reference means. -/
structure Use where
  blocks : List String
  name : String
  means : Option (List String)

/-- The references in a body. What a dynamic block repeats for is looked up around it, its content inside it. -/
def uses (mode : Mode) (scope : Scope) (blocks : List String) : List Entry → List Use
  | [] => []
  | .assign name value :: rest => ⟨blocks, name, meaning mode scope value⟩ :: uses mode scope blocks rest
  | .dynamic label guard content :: rest =>
    match operands? guard with
    | some (tested, repeated) =>
      let place := meaning mode scope repeated
      [⟨blocks, label, meaning mode scope tested⟩, ⟨blocks, label, place⟩]
        ++ uses mode ((label, place) :: scope) (blocks ++ [label]) content
        ++ uses mode scope blocks rest
    | none => [⟨blocks, label, none⟩]

def Use.IsOwn (u : Use) : Prop := u.means = some (u.blocks ++ [u.name])

/-- Declarations among which these names lead to one. -/
def Leads : List Declaration → List String → Prop
  | _, [] => True
  | ds, name :: path => ∃ d ∈ ds, d.name = name ∧ Leads d.inner path

/-! ## Looking up -/

theorem operands?_guardOf (source : String) (h : Reading.IsPath source.toList) :
    operands? (Entry.guardOf source) = some (source, source) := by
  have hround := h.not_mem ')' (by decide) (by decide)
  have hsquare := h.not_mem ']' (by decide) (by decide)
  have hopening := Text.after?_append "can(coalesce(".toList
    (source.toList ++ (")) ? flatten([".toList ++ (source.toList ++ "]) : []".toList)))
  have htested : Text.splitAt? ')' (source.toList ++ (")) ? flatten([".toList ++ (source.toList ++ "]) : []".toList)))
      = some (source.toList, ") ? flatten([".toList ++ (source.toList ++ "]) : []".toList)) :=
    Text.splitAt?_append ')' source.toList _ hround
  have hbetween := Text.after?_append ") ? flatten([".toList (source.toList ++ "]) : []".toList)
  have hrepeated : Text.splitAt? ']' (source.toList ++ "]) : []".toList) = some (source.toList, ") : []".toList) :=
    Text.splitAt?_append ']' source.toList _ hsquare
  unfold operands?
  rw [toList_guardOf, hopening, Option.bind_some, htested, Option.bind_some]
  simp only
  rw [hbetween, Option.bind_some, hrepeated, Option.bind_some]
  change (if ") : []".toList = ") : []".toList then _ else none) = _
  rw [if_pos rfl, String.ofList_toList]

theorem splitAll_name {name : String} (h : Text.isIdentifier name.toList = true) (rest : List Char) :
    Text.splitAll '.' (name.toList ++ '.' :: rest) = name.toList :: Text.splitAll '.' rest :=
  Text.splitAll_append '.' _ rest ((Text.IsName.of_isIdentifier h).not_mem '.' (by decide))

theorem splitAll_last {name : String} (h : Text.isIdentifier name.toList = true) :
    Text.splitAll '.' name.toList = [name.toList] :=
  Text.splitAll_of_not_mem '.' _ ((Text.IsName.of_isIdentifier h).not_mem '.' (by decide))

theorem meaning_two (mode : Mode) (scope : Scope) {first name : String}
    (hf : Text.isIdentifier first.toList = true) (hn : Text.isIdentifier name.toList = true) :
    meaning mode scope (first ++ "." ++ name) = resolve mode scope [first, name] := by
  have hsplit : Text.splitAll '.' (first ++ "." ++ name).toList = [first.toList, name.toList] := by
    have h := splitAll_name hf name.toList
    rw [splitAll_last hn] at h
    simpa using h
  rw [meaning, hsplit]
  simp

theorem meaning_three (mode : Mode) (scope : Scope) {first name : String}
    (hf : Text.isIdentifier first.toList = true) (hn : Text.isIdentifier name.toList = true) :
    meaning mode scope (first ++ ".value" ++ "." ++ name) = resolve mode scope [first, "value", name] := by
  have hvalue : Text.isIdentifier "value".toList = true := by decide
  have hsplit : Text.splitAll '.' (first ++ ".value" ++ "." ++ name).toList
      = [first.toList, "value".toList, name.toList] := by
    have h := splitAll_name hf ("value".toList ++ '.' :: name.toList)
    rw [splitAll_name hvalue, splitAll_last hn] at h
    simpa using h
  rw [meaning, hsplit]
  simp

/-- Where the references of a root mean the items of one declared object. -/
def Denotes (mode : Mode) (scope : Scope) (root : Root) (blocks : List String) : Prop :=
  ∀ name : String, Text.isIdentifier name.toList = true →
    meaning mode scope (Reference.text ⟨root, name⟩) = some (blocks ++ [name])

theorem denotes_rootOf (mode : Mode) : Denotes mode [] (rootOf mode) [] := by
  intro name hn
  cases mode with
  | single =>
    have h := meaning_two .single [] (by decide : Text.isIdentifier "var".toList = true) hn
    rw [Reference.text, rootOf, Root.text, h]
    simp [resolve, given?]
  | multiple =>
    have h := meaning_three .multiple [] (by decide : Text.isIdentifier "each".toList = true) hn
    have htext : "each.value" = "each" ++ ".value" := by decide
    rw [Reference.text, rootOf, Root.text, htext, h]
    simp [resolve, given?]

/-- Inside a dynamic block its label means its own element, whatever else has that name around it. -/
theorem denotes_block (mode : Mode) (scope : Scope) (label : String) (blocks : List String)
    (hl : Text.isIdentifier label.toList = true) :
    Denotes mode ((label, some blocks) :: scope) (.block label) blocks := by
  intro name hn
  rw [Reference.text, Root.text, meaning_three mode _ hl hn]
  simp [resolve, element?]

example : meaning .multiple [("each", some ["disk", "each"]), ("disk", some ["disk"])] "each.value.path"
    = some ["disk", "each", "path"] := by
  rfl

/-! ## Every reference -/

/-- What is carried into a dynamic block: its references mean the items of the object that it repeats for. -/
theorem uses_are_own (mode : Mode) (root : Root) (items : List Item) (hr : root.isNamed = true)
    (hi : Item.areNamed items = true) :
    ∀ (scope : Scope) (blocks : List String), Denotes mode scope root blocks →
      ∀ u ∈ uses mode scope blocks (Entry.ofStatements (statements root items)), u.IsOwn := by
  induction root, items using statements.induct with
  | case1 root =>
    intro scope blocks _ u hu
    rw [statements, Entry.ofStatements, uses] at hu
    cases hu
  | case2 root name a rest ih =>
    simp only [Item.areNamed, Bool.and_eq_true] at hi
    obtain ⟨⟨hname, -⟩, hrest⟩ := hi
    intro scope blocks hd u hu
    rw [statements, Entry.ofStatements, uses] at hu
    rcases List.mem_cons.mp hu with rfl | hu
    · exact hd name hname
    · exact ih hr hrest scope blocks hd u hu
  | case3 root name nesting rest ih =>
    simp only [Item.areNamed, Bool.and_eq_true] at hi
    intro scope blocks hd u hu
    rw [statements, Entry.ofStatements] at hu
    exact ih hr hi.2 scope blocks hd u hu
  | case4 root name nesting description items rest ihi ih =>
    simp only [Item.areNamed, Bool.and_eq_true] at hi
    obtain ⟨⟨hname, hitems⟩, hrest⟩ := hi
    intro scope blocks hd u hu
    rw [statements] at hu
    split at hu
    · have hplace := hd name hname
      rw [Entry.ofStatements, uses, operands?_guardOf _ (Reference.isPath_text root name hr hname)] at hu
      simp only [List.mem_append, List.mem_cons, List.not_mem_nil, or_false, hplace] at hu
      rcases hu with ((rfl | rfl) | hu) | hu
      · rfl
      · rfl
      -- Inside, the block itself is the innermost one, so its label is taken for no other.
      · exact ihi hname hitems _ _ (denotes_block mode scope name _ hname) u hu
      · exact ih hr hrest scope blocks hd u hu
    · rw [Entry.ofStatements] at hu
      exact ih hr hrest scope blocks hd u hu

theorem leads_head (name : String) (inner ds : List Declaration) : Leads (.mk name inner :: ds) [name] :=
  ⟨.mk name inner, List.mem_cons_self, rfl, trivial⟩

theorem leads_inner (name : String) {inner : List Declaration} (ds : List Declaration) {path : List String}
    (h : Leads inner path) : Leads (.mk name inner :: ds) (name :: path) :=
  ⟨.mk name inner, List.mem_cons_self, rfl, h⟩

theorem leads_tail (d : Declaration) {ds : List Declaration} {path : List String} (h : Leads ds path) :
    Leads (d :: ds) path := by
  cases path with
  | nil => trivial
  | cons name path =>
    obtain ⟨e, he, hname, hrest⟩ := h
    exact ⟨e, List.mem_cons_of_mem _ he, hname, hrest⟩

theorem uses_lead (mode : Mode) (scope : Scope) (blocks : List String) (entries : List Entry) :
    ∀ ds : List Declaration, Mirrors (Entry.outlines entries) ds →
      ∀ u ∈ uses mode scope blocks entries,
        ∃ inner, u.blocks = blocks ++ inner ∧ Leads ds (inner ++ [u.name]) := by
  induction scope, blocks, entries using uses.induct mode with
  | case1 scope blocks =>
    intro ds _ u hu
    rw [uses] at hu
    cases hu
  | case2 scope blocks name value rest ih =>
    intro ds hm u hu
    rw [Entry.outlines] at hm
    cases hm with
    | argument hrest =>
      rw [uses] at hu
      rcases List.mem_cons.mp hu with rfl | hu
      · exact ⟨[], by simp, leads_head _ _ _⟩
      · obtain ⟨inner, hblocks, hleads⟩ := ih _ hrest u hu
        exact ⟨inner, hblocks, leads_tail _ hleads⟩
  | case3 scope blocks label guard content rest tested repeated hoperands place ihi ih =>
    intro ds hm u hu
    rw [Entry.outlines] at hm
    cases hm with
    | block hcontent hrest =>
      simp only [uses, hoperands, List.mem_append, List.mem_cons, List.not_mem_nil, or_false] at hu
      rcases hu with ((rfl | rfl) | hu) | hu
      · exact ⟨[], by simp, leads_head _ _ _⟩
      · exact ⟨[], by simp, leads_head _ _ _⟩
      · obtain ⟨inner, hblocks, hleads⟩ := ihi _ hcontent u hu
        refine ⟨label :: inner, ?_, leads_inner _ _ hleads⟩
        rw [hblocks, List.append_assoc]
        rfl
      · obtain ⟨inner, hblocks, hleads⟩ := ih _ hrest u hu
        exact ⟨inner, hblocks, leads_tail _ hleads⟩
  | case4 scope blocks label guard content rest hoperands =>
    intro ds hm u hu
    rw [Entry.outlines] at hm
    cases hm with
    | block hcontent hrest =>
      simp only [uses, hoperands, List.mem_singleton] at hu
      subst hu
      exact ⟨[], by simp, leads_head _ _ _⟩

/-- Both texts of a resource are read back, the body has a reference for every item of the block, and each of
them means the declared object of the blocks around its item, and in it the item. -/
theorem references_mean_own_declarations (comments : Bool) (type : String) (block : Block) (mode : Mode)
    (variableName : String) (ht : Text.isIdentifier type.toList = true) (hb : block.isNamed = true)
    (hn : '\n' ∉ variableName.toList) (hq : '"' ∉ variableName.toList) :
    ∃ entries ds,
      read mode (Text.ofLines (resourceLines type block mode variableName)) = some entries ∧
      Inputs.read mode (Text.ofLines (Inputs.resourceLines comments block mode variableName)) = some ds ∧
      Entry.outlines entries = block.outline ∧ Mirrors block.outline ds ∧
      ∀ u ∈ uses mode [] [] entries, u.means = some (u.blocks ++ [u.name]) ∧ Leads ds (u.blocks ++ [u.name]) := by
  have hitems : Item.areNamed block.items = true := by rw [areNamed_items]; exact hb
  have houtline : Entry.outlines (Entry.ofStatements (statements (rootOf mode) block.items)) = block.outline := by
    rw [Entry.outlines_ofStatements, outlines_items]
  have hmirrors := Inputs.mirrors_declarations comments block mode
  refine ⟨_, _, read_resourceLines type block mode variableName ht hb hn,
    Inputs.read_resourceLines comments block mode variableName hb hn hq, houtline, hmirrors, ?_⟩
  intro u hu
  have hown := uses_are_own mode (rootOf mode) block.items (isNamed_rootOf mode) hitems [] [] (denotes_rootOf mode) u hu
  rw [← houtline] at hmirrors
  obtain ⟨inner, hblocks, hleads⟩ := uses_lead mode [] [] _ _ hmirrors u hu
  refine ⟨hown, ?_⟩
  rw [hblocks]
  exact hleads

/-- Blocks that take the names of the blocks around them, of the variables and of the element of the resource. -/
def shadowing : Block :=
  .mk [("var", ⟨some .string, "", true, false, false⟩)]
    [("each", ⟨.list, 0, 0⟩, some (.mk [("each", ⟨some .bool, "", false, true, false⟩)]
      [("var", ⟨.set, 0, 0⟩, some (.mk [] [("each", ⟨.single, 0, 1⟩,
        some (.mk [("path", ⟨none, "", false, true, false⟩)] [] ""))] ""))] ""))] ""

theorem references_mean_own_declarations_shadowing :
    ∃ entries ds,
      read .multiple (Text.ofLines (resourceLines "vm" shadowing .multiple "vms")) = some entries ∧
      Inputs.read .multiple (Text.ofLines (Inputs.resourceLines false shadowing .multiple "vms")) = some ds ∧
      Entry.outlines entries = shadowing.outline ∧ Mirrors shadowing.outline ds ∧
      ∀ u ∈ uses .multiple [] [] entries,
        u.means = some (u.blocks ++ [u.name]) ∧ Leads ds (u.blocks ++ [u.name]) :=
  references_mean_own_declarations false "vm" shadowing .multiple "vms" (by decide) (by decide) (by decide)
    (by decide)

end ModuleScaffold.Body
