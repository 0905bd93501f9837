import ModuleScaffold.Proofs.Clashes
import ModuleScaffold.Proofs.Passes
import ModuleScaffold.Proofs.Refinement.Recognition

/-! # Refusals inside nested blocks

A line of a nested block gives the name of an attribute, but not the path that leads to it. Main statement: what is
dropped when the validator points at such a line are the attributes of this name of the resources themselves. -/

namespace ModuleScaffold

/-! ## Lines of nested blocks -/

theorem nestedNamed_of_mem {nested : List (String × Nesting × Option Block)} {name : String} {nesting : Nesting}
    {inner : Block} (h : nestedNamed nested = true) (hmem : (name, nesting, some inner) ∈ nested) :
    Text.isIdentifier name.toList = true ∧ inner.isNamed = true := by
  induction nested with
  | nil => cases hmem
  | cons entry rest ih =>
    obtain ⟨name', nesting', _ | b⟩ := entry
    · simp only [nestedNamed, Bool.and_eq_true] at h
      rcases List.mem_cons.mp hmem with heq | hmem
      · cases heq
      · exact ih h.2 hmem
    · simp only [nestedNamed, Bool.and_eq_true] at h
      rcases List.mem_cons.mp hmem with heq | hmem
      · cases heq
        exact h.1
      · exact ih h.2 hmem

theorem Block.isNamed_nested {b inner : Block} {name : String} {nesting : Nesting} (hb : b.isNamed = true)
    (hmem : (name, nesting, some inner) ∈ b.nested) :
    Text.isIdentifier name.toList = true ∧ inner.isNamed = true := by
  cases b with
  | mk attributes nested description =>
    rw [Block.isNamed, Bool.and_eq_true] at hb
    exact nestedNamed_of_mem hb.2 hmem

namespace Body

/-- The lines of a nested block stand among those of the block around it. -/
theorem mem_lines_of_block (depth : Nat) (root : Root) {items inner : List Item} {name description l : String}
    {nesting : Nesting} (h : .block name nesting (some (description, inner)) ∈ items)
    (hmode : nesting.mode.isSupported = true) (hl : l ∈ lines (depth + 2) (statements (.block name) inner)) :
    l ∈ lines depth (statements root items) := by
  refine mem_lines h ?_
  rw [statements, if_pos hmode, lines]
  simp only [List.mem_append]
  exact Or.inl (Or.inl (Or.inr hl))

/-- Where the references of the block at a path begin. -/
def rootAt (root : Root) : List String → Root
  | [] => root
  | name :: path => rootAt (.block name) path

theorem isNamed_rootAt {b c : Block} {path : List String} (h : b.Reaches path c) {root : Root}
    (hr : root.isNamed = true) (hb : b.isNamed = true) : (rootAt root path).isNamed = true ∧ c.isNamed = true := by
  induction h generalizing root with
  | here => exact ⟨hr, hb⟩
  | inside hmem _ _ ih =>
    obtain ⟨hname, hinner⟩ := Block.isNamed_nested hb hmem
    exact ih hname hinner

/-- The line of an attribute at any depth, two levels deeper for every block around it. -/
theorem mem_lines_of_reaches {b c : Block} {path : List String} (h : b.Reaches path c) {name : String} {a : Attribute}
    (ha : (name, a) ∈ c.attributes) (depth : Nat) (root : Root) :
    lineAt (depth + 2 * path.length) (rootAt root path) name ∈ lines depth (statements root b.items) := by
  induction h generalizing depth root with
  | here => exact mem_lines_of_argument depth root (Block.argument_mem_items ha)
  | @inside b inner c label nesting path hmem hmode _ ih =>
    have hinner := ih ha (depth + 2) (.block label)
    have hdepth : depth + 2 * (label :: path).length = depth + 2 + 2 * path.length := by
      rw [List.length_cons]
      omega
    rw [hdepth]
    exact mem_lines_of_block depth root (Block.block_mem_items hmem) ((isSupported_iff_written _).mpr hmode) hinner

end Body

/-! ## Diagnostics that point inside -/

/-- A diagnostic that points at an attribute in a nested block of a requested resource, at any depth, and gives no name
itself: it shows the line that opens the resource and the line of the attribute. -/
structure Diagnostic.PointsInside (p : Plan) (s : SchemaSet) (d : Diagnostic) (type : String) (path : List String)
    (name : String) : Prop where
  nested : path ≠ []
  severity : d.severity = "error"
  address : d.address = ""
  unnamed : d.namedAttribute? = none
  snippet : ∃ r schema inner a, r ∈ p.requests ∧ r.type = type ∧ p.schemaOf s r = .ok schema ∧
    schema.block.Reaches path inner ∧ (name, a) ∈ inner.attributes ∧
    d.snippet = some ⟨some (Body.headerLine type),
      Body.lineAt (1 + 2 * path.length) (Body.rootAt (Body.rootOf r.mode) path) name⟩

namespace Refinement

variable {p : Plan} {s : SchemaSet} {d : Diagnostic} {type name : String} {path : List String}

theorem refusal?_of_pointsInside (hs : s.isNamed = true) (h : d.PointsInside p s type path name) :
    Text.isIdentifier type.toList = true ∧ d.refusal? = some (type ++ "." ++ "this", name) := by
  obtain ⟨r, schema, inner, a, -, rfl, hschema, hreach, ha, hsnippet⟩ := h.snippet
  obtain ⟨htype, hblock⟩ := Plan.isNamed_of_schemaOf hs hschema
  obtain ⟨hroot, hinner⟩ := Body.isNamed_rootAt hreach (Body.isNamed_rootOf r.mode) hblock
  have hname := (Block.isNamed_attribute hinner ha).1
  exact ⟨htype, Diagnostic.refusal?_of_line h.severity h.address h.unnamed hsnippet htype hroot hname⟩

theorem inside_shown_in_main (hs : s.isNamed = true) (h : d.PointsInside p s type path name) :
    ∃ context code, d.snippet = some ⟨some context, code⟩ ∧
      context.toList ∈ Text.lines (p.generate s).main.toList ∧
      code.toList ∈ Text.lines (p.generate s).main.toList := by
  obtain ⟨r, schema, inner, a, hr, rfl, hschema, hreach, ha, hsnippet⟩ := h.snippet
  obtain ⟨htype, hblock⟩ := Plan.isNamed_of_schemaOf hs hschema
  obtain ⟨hroot, hinner⟩ := Body.isNamed_rootAt hreach (Body.isNamed_rootOf r.mode) hblock
  have hname := (Block.isNamed_attribute hinner ha).1
  have hlines : p.mainLines s r
      = Body.resourceLines r.type schema.block r.mode (Naming.variableName r.type) := by
    rw [Plan.mainLines, hschema]
  have hmem := Body.mem_lines_of_reaches hreach ha 1 (Body.rootOf r.mode)
  obtain ⟨hheader, hheaderFull⟩ := Body.isLine_headerLine htype
  obtain ⟨hline, hfull⟩ := Body.isLine_lineAt (1 + 2 * path.length) hroot hname
  refine ⟨_, _, hsnippet, ?_, ?_⟩
  · exact Plan.mem_lines_main hr (by rw [hlines]; exact Body.headerLine_mem _ _ _ _) hheaderFull hheader
  · refine Plan.mem_lines_main hr ?_ hfull hline
    rw [hlines]
    unfold Body.resourceLines
    simp only [List.mem_append]
    exact Or.inl (Or.inr hmem)

theorem dropRefused_of_pointsInside (hs : s.isNamed = true) (h : d.PointsInside p s type path name) :
    s.dropRefused (Refusals.ofDiagnostics [d]) = s.without [(type, name)] := by
  obtain ⟨htype, hrefusal⟩ := refusal?_of_pointsInside hs h
  apply SchemaSet.dropRefused_eq_without hs
  intro type' name' htype'
  have haddressed := SchemaSet.addresses_labelled type type' "this" (not_point_of_isIdentifier htype)
    (not_point_of_isIdentifier htype')
  rw [SchemaSet.mem_refusedFor, List.mem_singleton, Prod.mk.injEq]
  simp only [Refusals.mentions_ofDiagnostics, List.mem_singleton, exists_eq_left, hrefusal, Option.some.injEq,
    Prod.mk.injEq]
  constructor
  · rintro ⟨address, haddress, rfl, rfl⟩
    exact ⟨haddressed.mp haddress, rfl⟩
  · rintro ⟨rfl, rfl⟩
    exact ⟨_, haddressed.mpr rfl, rfl, rfl⟩

/-- A schema set without some attributes is the same when none of its resources has them. -/
theorem without_eq_self_iff (pairs : List (String × String)) :
    s.without pairs = s ↔
      ∀ key type r, s.Holds key type r → ∀ name a, (name, a) ∈ r.block.attributes → (type, name) ∉ pairs := by
  have hblock : ∀ (type : String) (b : Block),
      b.withAttributes (b.attributes.filter fun e => (type, e.1) ∉ pairs) = b ↔
        ∀ name a, (name, a) ∈ b.attributes → (type, name) ∉ pairs := by
    rintro type ⟨attributes, nested, description⟩
    simp only [Block.withAttributes, Block.attributes, Block.mk.injEq, and_true, List.filter_eq_self,
      decide_eq_true_eq, Prod.forall]
  constructor
  · rintro hsame key type r ⟨resources, hk, hr⟩
    have hproviders := (congrArg SchemaSet.providers hsame).trans (List.map_id _).symm
    have hresources := (congrArg Prod.snd (List.map_inj_left.mp hproviders _ hk)).trans (List.map_id _).symm
    have hresource := List.map_inj_left.mp hresources _ hr
    exact (hblock type r.block).mp (congrArg (ResourceSchema.block ∘ Prod.snd) hresource)
  · intro hnone
    have hsame : s.without pairs = s.mapBlocks fun _ b => b :=
      SchemaSet.mapBlocks_congr fun key resources hk type r hr =>
        (hblock type r.block).mpr (hnone key type r ⟨resources, hk, hr⟩)
    rw [hsame]
    simp [SchemaSet.mapBlocks]

/-- When the validator points at an attribute inside a nested block, at any depth, the attributes of this name go that
the resources of this type have themselves, wherever the type occurs, and every nested block stays as it is. So the
schemas stay as they are just when these resources have no attribute of this name. -/
theorem pointing_inside_drops_outside (hs : s.isNamed = true) (h : d.PointsInside p s type path name) :
    (∃ context code, d.snippet = some ⟨some context, code⟩ ∧
      context.toList ∈ Text.lines (p.generate s).main.toList ∧
      code.toList ∈ Text.lines (p.generate s).main.toList) ∧
    s.dropRefused (Refusals.ofDiagnostics [d]) = s.without [(type, name)] ∧
    (s.dropRefused (Refusals.ofDiagnostics [d]) = s ↔
      ∀ key r, s.Holds key type r → ∀ a, (name, a) ∉ r.block.attributes) := by
  have hdropped := dropRefused_of_pointsInside hs h
  refine ⟨inside_shown_in_main hs h, hdropped, ?_⟩
  rw [hdropped, without_eq_self_iff]
  simp only [List.mem_singleton, Prod.mk.injEq, not_and]
  constructor
  · intro hnone key r hr a ha
    exact hnone key type r hr name a ha rfl rfl
  · rintro hnone key _ r hr _ a ha rfl rfl
    exact hnone key r hr a ha

/-- A resource with an attribute that a block deeper in it has as well, and another one that only this block has. -/
def mounts : Block :=
  .mk [("size", ⟨some .number, "", true, false, false⟩)]
    [("disk", ⟨.list, 0, 0⟩, some (.mk [("size", ⟨some .number, "", false, true, false⟩)]
      [("mount", ⟨.single, 0, 1⟩, some (.mk [("path", ⟨some .string, "", true, false, false⟩),
        ("size", ⟨some .string, "", false, true, true⟩)] [] ""))] ""))] ""

def mountSchemas : SchemaSet := ⟨"1.0", [("host/hashicorp/aws", [("aws_instance", ⟨1, mounts⟩)])]⟩

def mountPlan : Plan := Plan.instancePlan [Plan.awsInstance]

/-- The line of an attribute of a mount is refused. -/
def mountRefused (name : String) : Diagnostic :=
  ⟨"error", "", "", "", some ⟨some (Body.headerLine "aws_instance"), Body.lineAt 5 (.block "mount") name⟩⟩

example : Body.lineAt 5 (.block "mount") "size" = "          size = mount.value.size" := by decide

theorem mountRefused_pointsInside {name : String} (hname : name = "path" ∨ name = "size") :
    (mountRefused name).PointsInside mountPlan mountSchemas "aws_instance" ["disk", "mount"] name := by
  refine ⟨by decide, rfl, rfl, rfl, ?_⟩
  refine ⟨_, _, _, ?_, List.mem_cons_self, rfl, rfl,
    .inside List.mem_cons_self (by decide) (.inside List.mem_cons_self (by decide) (.here _)), ?_, rfl⟩
  · exact if name = "path" then ⟨some .string, "", true, false, false⟩ else ⟨some .string, "", false, true, true⟩
  · rcases hname with rfl | rfl
    · exact List.mem_cons_self
    · exact List.mem_cons_of_mem _ List.mem_cons_self

theorem pointing_inside_drops_outside_path :
    mountSchemas.dropRefused (Refusals.ofDiagnostics [mountRefused "path"]) = mountSchemas := by
  refine (pointing_inside_drops_outside (by decide) (mountRefused_pointsInside (Or.inl rfl))).2.2.mpr ?_
  rintro key r ⟨resources, hk, hr⟩ a ha
  simp only [mountSchemas, List.mem_singleton, Prod.mk.injEq] at hk
  rw [hk.2] at hr
  simp only [List.mem_singleton, Prod.mk.injEq, true_and] at hr
  rw [hr] at ha
  simp [mounts, Block.attributes] at ha

/-- A refusal inside a nested block may take an attribute from the resource that nobody refused. -/
theorem pointing_inside_may_drop_another :
    ¬ ∀ (arguments inputs : List String) (providers : Table Provider) (p : Plan) (s : SchemaSet) (d : Diagnostic)
        (type name : String) (path : List String),
      Arguments.providers arguments = .ok providers → Arguments.requests providers inputs = .ok p.requests →
      s.isNamed = true → d.PointsInside p s type path name →
      ∀ key r, s.Holds key type r → ∀ e ∈ r.block.attributes,
        ∃ r', (s.dropRefused (Refusals.ofDiagnostics [d])).Holds key type r' ∧ e ∈ r'.block.attributes := by
  intro h
  have hnamed : mountSchemas.isNamed = true := by decide
  have hinside := mountRefused_pointsInside (Or.inr rfl)
  obtain ⟨r, ⟨resources, hk, hr⟩, he⟩ := h ["hashicorp/aws", "hashicorp/google"] ["aws_instance"]
    Plan.instanceProviders _ _ _ _ _ _ rfl rfl hnamed hinside "host/hashicorp/aws" ⟨1, mounts⟩
    ⟨_, List.mem_cons_self, List.mem_cons_self⟩ _ List.mem_cons_self
  rw [dropRefused_of_pointsInside hnamed hinside] at hk
  simp only [SchemaSet.without, SchemaSet.mapBlocks, mountSchemas, List.map_cons, List.map_nil, List.mem_singleton,
    Prod.mk.injEq, true_and] at hk
  rw [hk] at hr
  obtain ⟨-, rfl⟩ := Prod.mk.inj (List.mem_singleton.mp hr)
  simp [mounts, Block.withAttributes, Block.attributes] at he

end Refinement
end ModuleScaffold
