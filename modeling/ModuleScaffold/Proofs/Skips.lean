import ModuleScaffold.Proofs.Agreement
import ModuleScaffold.Proofs.Omissions
import ModuleScaffold.Proofs.Refinement.Inside

/-! # Warnings about what is left out

The body and the inputs of a resource are written by two walks that decide for themselves what they leave out. Main
statement: both warn of the same nested blocks in the same order, and of nothing else, and these are what is missing in
what they write. -/

namespace ModuleScaffold

/-! ## Warnings -/

/-- The warnings among events. -/
def warnings (es : List Event) : List Event := es.filter fun e => e.level = .warn

theorem warnings_append (es others : List Event) : warnings (es ++ others) = warnings es ++ warnings others :=
  List.filter_append es others

namespace Omission

/-- The warning about what is left out of a body whose references begin at `root`. -/
def bodyWarning (root : Body.Root) (o : Omission) : Event :=
  match o.reason with
  | .missingBody =>
    Body.event .warn ("Skipping invalid nested block " ++ o.name ++ " under " ++ (Body.rootAt root o.path).text)
  | .unsupported mode =>
    Body.event .warn ("Unknown nesting mode " ++ mode.label ++ " for block " ++ o.name ++ ", skipping")

/-- The warning about what is left out of the inputs. -/
def inputWarning (o : Omission) : Event := Inputs.skipEvent o.name o.reason

end Omission

namespace Body

theorem warnings_events (root : Root) (items : List Item) :
    warnings (events (statements root items)) = (Item.omissions items).map (Omission.bodyWarning root) := by
  induction root, items using statements.induct with
  | case1 root => rw [statements, events, Item.omissions]; rfl
  | case2 root name a rest ih =>
    rw [statements, events, Item.omissions, ← ih]
    rfl
  | case3 root name nesting rest ih =>
    rw [statements, events, Item.omissions, List.map_cons, ← ih]
    rfl
  | case4 root name nesting description items rest ihi ih =>
    rw [statements, Item.omissions, List.map_append, ← ih]
    by_cases hmode : nesting.mode.isSupported = true
    · rw [if_pos hmode, if_pos ((isSupported_iff_written _).mp hmode), events, warnings_append, ihi, List.map_map]
      rfl
    · rw [if_neg hmode, if_neg (mt (isSupported_iff_written _).mpr hmode), events]
      rfl

theorem warnings_resourceEvents (block : Block) (mode : Mode) (variableName : String) :
    warnings (resourceEvents block mode variableName)
      = block.omissions.map (Omission.bodyWarning (rootOf mode)) := by
  unfold resourceEvents
  rw [warnings_append, warnings_events]
  cases mode <;> rfl

/-- The names that the body of a resource writes, those in the content of a dynamic block below its label. -/
def written (block : Block) (mode : Mode) : List Outline :=
  Entry.outlines (Entry.ofStatements (statements (rootOf mode) block.items))

theorem written_eq_outline (block : Block) (mode : Mode) : written block mode = block.outline := by
  rw [written, Entry.outlines_ofStatements, outlines_items]

theorem statements_visibles (root : Root) (items : List Item) :
    statements root (Item.visibles items) = statements root items := by
  induction root, items using statements.induct with
  | case1 root => rw [Item.visibles]
  | case2 root name a rest ih => rw [Item.visibles, statements, statements, ih]
  | case3 root name nesting rest ih => rw [Item.visibles, statements, statements, ih]
  | case4 root name nesting description items rest ihi ih =>
    rw [Item.visibles]
    by_cases hmode : nesting.mode.isSupported = true
    · rw [if_pos ((isSupported_iff_written _).mp hmode), statements, statements, ihi, ih]
    · rw [if_neg (mt (isSupported_iff_written _).mpr hmode), statements, if_neg hmode, statements, if_neg hmode, ih]

theorem statements_visible (root : Root) (block : Block) :
    statements root block.visible.items = statements root block.items := by
  rw [items_visible, statements_visibles]

end Body

namespace Inputs

theorem ofMode?_of_not_written {mode : NestingMode} (h : mode ∉ NestingMode.written) : Holder.ofMode? mode = none := by
  rw [← Option.isNone_iff_eq_none, ← Option.not_isSome, isSome_ofMode?]
  simpa using mt (isSupported_iff_written mode).mp h

theorem exists_ofMode? {mode : NestingMode} (h : mode ∈ NestingMode.written) :
    ∃ holder, Holder.ofMode? mode = some holder := by
  rw [← Option.isSome_iff_exists, isSome_ofMode?]
  exact (isSupported_iff_written mode).mpr h

theorem warnings_fieldEvents (comments : Bool) (depth : Nat) (items : List Item) :
    warnings (fieldEvents depth (fields comments items)) = (Item.omissions items).map Omission.inputWarning := by
  induction items using fields.induct generalizing depth with
  | case1 => rw [fields, fieldEvents, Item.omissions]; rfl
  | case2 name a rest ih =>
    rw [fields, fieldEvents, Item.omissions, ← ih depth]
    rfl
  | case3 name nesting rest ih =>
    rw [fields, fieldEvents, Item.omissions, List.map_cons, ← ih depth]
    rfl
  | case4 name nesting description items rest ihi ih =>
    rw [fields, Item.omissions, List.map_append, ← ih depth]
    by_cases hmode : nesting.mode ∈ NestingMode.written
    · obtain ⟨holder, hholder⟩ := exists_ofMode? hmode
      rw [if_pos hmode, hholder, fieldEvents, warnings_append, ihi (depth + 1), List.map_map]
      rfl
    · rw [if_neg hmode, ofMode?_of_not_written hmode, fieldEvents]
      rfl

theorem warnings_variableOf (comments : Bool) (i : Item) :
    warnings (variableOf comments i).events = (Item.omissions [i]).map Omission.inputWarning := by
  rcases i with ⟨name, a⟩ | ⟨name, nesting, _ | ⟨description, items⟩⟩
  · rw [variableOf, Item.omissions, Item.omissions]
    rfl
  · rw [variableOf, Item.omissions, Item.omissions]
    rfl
  · rw [variableOf, Item.omissions, Item.omissions, List.append_nil]
    by_cases hmode : nesting.mode.isSupported = true
    · rw [if_pos hmode, if_pos ((isSupported_iff_written _).mp hmode), Variable.events, warnings_append,
        warnings_fieldEvents, List.map_map]
      exact List.append_nil _
    · rw [if_neg hmode, if_neg (mt (isSupported_iff_written _).mpr hmode)]
      rfl

theorem warnings_resourceEvents (comments : Bool) (block : Block) (mode : Mode) (variableName : String) :
    warnings (resourceEvents comments block mode variableName) = block.omissions.map Omission.inputWarning := by
  unfold resourceEvents variablesOf Block.omissions
  cases mode with
  | single =>
    rw [warnings, List.filter_flatMap, List.flatMap_map, Item.omissions_eq_flatMap, List.map_flatMap]
    exact List.flatMap_congr fun i _ => warnings_variableOf comments i
  | multiple =>
    rw [List.flatMap_singleton]
    exact warnings_fieldEvents comments 2 block.items

/-- The names of fields, those in the object of a nested block below its name. -/
def fieldOutlines : List Field → List Outline
  | [] => []
  | .value name _ _ _ :: rest => .argument name :: fieldOutlines rest
  | .object name _ _ _ inner :: rest => .block name (fieldOutlines inner) :: fieldOutlines rest
  | .skipped _ _ :: rest => fieldOutlines rest

/-- The names that a variable stands for: its own, or those of the fields of a collection. -/
def Variable.outlines : Variable → List Outline
  | value name _ _ _ _ => [.argument name]
  | object name _ _ _ inner => [.block name (fieldOutlines inner)]
  | collection _ inner => fieldOutlines inner
  | skipped _ _ => []

/-- The names that the inputs of a resource write for its items. -/
def written (comments : Bool) (block : Block) (mode : Mode) (variableName : String) : List Outline :=
  (variablesOf comments block mode variableName).flatMap Variable.outlines

theorem fieldOutlines_fields (comments : Bool) (items : List Item) :
    fieldOutlines (fields comments items) = Item.outlines items := by
  induction items using fields.induct with
  | case1 => rw [fields, fieldOutlines, Item.outlines]
  | case2 name a rest ih => rw [fields, fieldOutlines, Item.outlines, ih]
  | case3 name nesting rest ih => rw [fields, fieldOutlines, Item.outlines, ih]
  | case4 name nesting description items rest ihi ih =>
    rw [fields, Item.outlines_block, ← isSome_ofMode?]
    cases Holder.ofMode? nesting.mode with
    | none => rw [fieldOutlines, ih]; rfl
    | some holder => rw [fieldOutlines, ihi, ih]; rfl

theorem outlines_variableOf (comments : Bool) (i : Item) :
    (variableOf comments i).outlines = i.outline?.toList := by
  rcases i with ⟨name, a⟩ | ⟨name, nesting, _ | ⟨description, items⟩⟩
  · rfl
  · rfl
  · rw [variableOf, Item.outline?]
    split
    · rw [Variable.outlines, fieldOutlines_fields]
      rfl
    · rfl

theorem written_eq_outline (comments : Bool) (block : Block) (mode : Mode) (variableName : String) :
    written comments block mode variableName = block.outline := by
  unfold written variablesOf
  rw [← outlines_items]
  cases mode with
  | single =>
    rw [List.flatMap_map, Item.outlines_eq_filterMap, List.filterMap_eq_flatMap_toList]
    exact List.flatMap_congr fun i _ => outlines_variableOf comments i
  | multiple =>
    rw [List.flatMap_singleton]
    exact fieldOutlines_fields comments block.items

theorem fields_visibles (comments : Bool) (items : List Item) :
    fields comments (Item.visibles items) = fields comments items := by
  induction items using fields.induct with
  | case1 => rw [Item.visibles]
  | case2 name a rest ih => rw [Item.visibles, fields, fields, ih]
  | case3 name nesting rest ih => rw [Item.visibles, fields, fields, ih]
  | case4 name nesting description items rest ihi ih =>
    rw [Item.visibles]
    by_cases hmode : nesting.mode ∈ NestingMode.written
    · rw [if_pos hmode, fields, fields, ihi, ih]
    · simp only [if_neg hmode, fields, ofMode?_of_not_written hmode, ih]

theorem variableOf_visible (comments : Bool) (i : Item) : variableOf comments i.visible = variableOf comments i := by
  rcases i with ⟨name, a⟩ | ⟨name, nesting, _ | ⟨description, items⟩⟩
  · rfl
  · rfl
  · rw [Item.visible]
    by_cases hmode : nesting.mode.isSupported = true
    · rw [if_pos ((isSupported_iff_written _).mp hmode), variableOf, variableOf, fields_visibles]
    · rw [if_neg (mt (isSupported_iff_written _).mpr hmode), variableOf, if_neg hmode, variableOf, if_neg hmode]

theorem variablesOf_visible (comments : Bool) (block : Block) (mode : Mode) (variableName : String) :
    variablesOf comments block.visible mode variableName = variablesOf comments block mode variableName := by
  unfold variablesOf
  cases mode with
  | single =>
    simp only [items_visible, Item.visibles_eq_map, List.map_map]
    exact List.map_congr_left fun i _ => variableOf_visible comments i
  | multiple => simp only [items_visible, fields_visibles]

end Inputs

/-! ## Skips and warnings -/

/-- The body and the inputs of a resource, in either mode, leave out the same nested blocks and warn of each of them
once, in the order of a walk along the items, and of nothing else. These are the nested blocks that are reached through
blocks that are written and that have no body or, if they have one, a mode that cannot be written. A nested block is
missing in what is written exactly when it or a block around it is left out; where names are identifiers, this can be
read off the texts. Nothing inside a block that is left out is warned of, and neither the texts nor the events depend on
it. -/
theorem skips_are_warned_of (comments : Bool) (type : String) (b : Block) (mode : Mode) (variableName : String)
    (hb : b.NestsInOrder) :
    warnings (Body.resourceEvents b mode variableName)
      = b.omissions.map (Omission.bodyWarning (Body.rootOf mode)) ∧
    warnings (Inputs.resourceEvents comments b mode variableName) = b.omissions.map Omission.inputWarning ∧
    (∀ o, o ∈ b.omissions ↔ b.Omits o) ∧
    b.omissions.Pairwise (fun o o' => o.place < o'.place) ∧
    (∀ o ∈ b.omissions, ∀ o' ∈ b.omissions, o.place <+: o'.place → o = o') ∧
    (∀ path, b.Nests path →
      ((¬ ∃ found, Outline.At (Body.written b mode) path found) ↔ ∃ o ∈ b.omissions, o.place <+: path) ∧
      ((¬ ∃ found, Outline.At (Inputs.written comments b mode variableName) path found) ↔
        ∃ o ∈ b.omissions, o.place <+: path)) ∧
    (Text.isIdentifier type.toList = true → b.isNamed = true → '\n' ∉ variableName.toList → '"' ∉ variableName.toList →
      ∃ entries ds,
        Body.read mode (Text.ofLines (Body.resourceLines type b mode variableName)) = some entries ∧
        Inputs.read mode (Text.ofLines (Inputs.resourceLines comments b mode variableName)) = some ds ∧
        Body.Entry.outlines entries = Body.written b mode ∧
        Mirrors (Inputs.written comments b mode variableName) ds) ∧
    ∀ c : Block, c.visible = b.visible →
      Body.resourceLines type c mode variableName = Body.resourceLines type b mode variableName ∧
      Body.resourceEvents c mode variableName = Body.resourceEvents b mode variableName ∧
      Inputs.resourceLines comments c mode variableName = Inputs.resourceLines comments b mode variableName ∧
      Inputs.resourceEvents comments c mode variableName = Inputs.resourceEvents comments b mode variableName := by
  refine ⟨Body.warnings_resourceEvents b mode variableName,
    Inputs.warnings_resourceEvents comments b mode variableName, b.mem_omissions_iff,
    Block.pairwise_place_omissions hb, fun o ho o' ho' => Block.eq_of_place_prefix hb ho ho', ?missing, ?texts,
    ?unseen⟩
  case missing =>
    intro path hpath
    have hmissing : (¬ ∃ found, Outline.At b.outline path found) ↔ ∃ o ∈ b.omissions, o.place <+: path := by
      rw [← Block.not_reaches_iff hb hpath]
      simp only [Outline.at_iff block_mem_outline]
      simp
    rw [Body.written_eq_outline, Inputs.written_eq_outline]
    exact ⟨hmissing, hmissing⟩
  case texts =>
    intro ht hn hfeed hquote
    refine ⟨_, _, Body.read_resourceLines type b mode variableName ht hn hfeed,
      Inputs.read_resourceLines comments b mode variableName hn hfeed hquote, rfl, ?_⟩
    rw [Inputs.written_eq_outline]
    exact Inputs.mirrors_declarations comments b mode
  case unseen =>
    intro c hc
    have hstatements : ∀ root, Body.statements root c.items = Body.statements root b.items := by
      intro root
      rw [← Body.statements_visible, hc, Body.statements_visible]
    have hvariables : Inputs.variablesOf comments c mode variableName
        = Inputs.variablesOf comments b mode variableName := by
      rw [← Inputs.variablesOf_visible, hc, Inputs.variablesOf_visible]
    unfold Body.resourceLines Body.resourceEvents Inputs.resourceLines Inputs.resourceEvents
    rw [hstatements, hvariables]
    exact ⟨rfl, rfl, rfl, rfl⟩

theorem nestedDisks_nestsInOrder : nestedDisks.NestsInOrder := by
  have hempty : Block.empty.NestsInOrder := .mk List.Pairwise.nil fun _ _ _ he => by cases he
  refine .mk (by unfold Table.Sorted; decide) fun name nesting disk he => ?_
  rcases List.mem_cons.mp he with heq | he
  · cases heq
    refine .mk (by unfold Table.Sorted; decide) fun name nesting c he => ?_
    rcases List.mem_cons.mp he with heq | he
    · cases heq
      exact hempty
    · cases List.mem_singleton.mp he
      exact hempty
  · cases List.mem_singleton.mp he

theorem omissions_nestedDisks :
    nestedDisks.omissions = [⟨["disk"], "var", .unsupported .map⟩, ⟨[], "tag", .missingBody⟩] := by
  have hempty : (Block.mk [] [] "").omissions = [] := Block.omissions_of_sorted List.Pairwise.nil
  cases nestedDisks_nestsInOrder with
  | mk sorted inner =>
    cases inner "disk" _ _ List.mem_cons_self with
    | mk sortedInner _ =>
      rw [Block.omissions_of_sorted sorted]
      simp [nestedDisks, Block.nested, Block.omissionsAt, Block.omissions_of_sorted sortedInner, hempty,
        NestingMode.written, Omission.below]

theorem skips_are_warned_of_nestedDisks :
    nestedDisks.NestsInOrder ∧
    warnings (Body.resourceEvents nestedDisks .multiple "vms")
      = [Body.event .warn "Unknown nesting mode Map for block var, skipping",
        Body.event .warn "Skipping invalid nested block tag under each.value"] ∧
    warnings (Inputs.resourceEvents true nestedDisks .multiple "vms")
      = [Inputs.event .warn "Unknown nesting mode Map for block var, skipping",
        Inputs.event .warn "Skipping invalid nested block tag"] := by
  obtain ⟨hbody, hinputs, -⟩ := skips_are_warned_of true "vm" nestedDisks .multiple "vms" nestedDisks_nestsInOrder
  rw [omissions_nestedDisks] at hbody hinputs
  exact ⟨nestedDisks_nestsInOrder, hbody, hinputs⟩

end ModuleScaffold
