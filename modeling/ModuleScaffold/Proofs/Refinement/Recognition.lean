import ModuleScaffold.Proofs.Reading.Module
import ModuleScaffold.Proofs.Refinement.Course
import ModuleScaffold.Proofs.Refusals
import ModuleScaffold.Proofs.Text.Search

/-! # A refinement understands its own module

The validator answers with lines of the module that it was given. Main statement: when it points at the lines of
some attributes, exactly these attributes are gone from the schemas and from the module after the run. -/

namespace ModuleScaffold

/-! ## Lines of a resource -/

namespace Body

def headerLine (type : String) : String := "resource \"" ++ type ++ "\" \"this\" \x7b"

/-- The line of an argument whose value begins at `root`. -/
def lineAt (depth : Nat) (root : Root) (name : String) : String :=
  AttributeType.indent depth ++ name ++ " = " ++ Reference.text ⟨root, name⟩

def argumentLine (mode : Mode) (name : String) : String :=
  AttributeType.indent 1 ++ name ++ " = " ++ Reference.text ⟨rootOf mode, name⟩

theorem headerLine_mem (type : String) (block : Block) (mode : Mode) (variableName : String) :
    headerLine type ∈ resourceLines type block mode variableName := by
  unfold resourceLines headerLine
  simp

theorem lines_statements (depth : Nat) (root : Root) (items : List Item) :
    lines depth (statements root items) = items.flatMap fun i => lines depth (statements root [i]) := by
  induction items with
  | nil => rw [statements, lines]; rfl
  | cons i rest ih =>
    rw [List.flatMap_cons, ← ih]
    rcases i with ⟨name, a⟩ | ⟨name, nesting, _ | ⟨description, items⟩⟩
    · simp [statements, lines]
    · simp [statements, lines]
    · cases hmode : nesting.mode.isSupported <;> simp [statements, lines, hmode]

/-- What is written for one item stands among the lines of all of them. -/
theorem mem_lines {items : List Item} {i : Item} (hi : i ∈ items) {depth : Nat} {root : Root} {l : String}
    (hl : l ∈ lines depth (statements root [i])) : l ∈ lines depth (statements root items) := by
  rw [lines_statements]
  exact List.mem_flatMap.mpr ⟨i, hi, hl⟩

theorem mem_lines_of_argument (depth : Nat) (root : Root) {items : List Item} {name : String} {a : Attribute}
    (h : .argument name a ∈ items) :
    lineAt depth root name ∈ lines depth (statements root items) := by
  refine mem_lines h ?_
  rw [statements, lines]
  exact List.mem_cons_self

theorem argumentLine_mem (type : String) {block : Block} (mode : Mode) (variableName : String) {name : String}
    {a : Attribute} (h : (name, a) ∈ block.attributes) :
    argumentLine mode name ∈ resourceLines type block mode variableName := by
  have hline := mem_lines_of_argument 1 (rootOf mode) (Block.argument_mem_items h)
  unfold resourceLines argumentLine
  simp only [List.mem_append]
  exact Or.inl (Or.inr hline)

theorem toList_headerLine (type : String) :
    (headerLine type).toList = Reading.blockOpening "resource" type.toList " \"this\" \x7b".toList := by
  simp [headerLine, Reading.blockOpening]

theorem toList_lineAt (depth : Nat) (root : Root) (name : String) :
    (lineAt depth root name).toList = (AttributeType.indent depth).toList
      ++ Reading.assigning name.toList (Reference.text ⟨root, name⟩).toList := by
  simp [lineAt, Reading.assigning]

theorem isLine_lineAt (depth : Nat) {root : Root} {name : String} (hr : root.isNamed = true)
    (hn : Text.isIdentifier name.toList = true) :
    Text.IsLine (lineAt depth root name).toList ∧ Text.allBlank (lineAt depth root name).toList = false := by
  have hsource := Reference.isPath_text root name hr hn
  have hworded := Reading.isWorded_assigning (.of_isIdentifier hn) hsource.ne_nil hsource.isLine
  rw [toList_lineAt]
  exact ⟨(Reading.isPad_indent depth).isLine hworded.ne_nil hworded.isLine, hworded.not_blank _⟩

theorem isLine_headerLine {type : String} (h : Text.isIdentifier type.toList = true) :
    Text.IsLine (headerLine type).toList ∧ Text.allBlank (headerLine type).toList = false := by
  have hworded := Reading.isWorded_blockOpening "resource" " \"this\" \x7b".toList (.of_isIdentifier (by decide))
    ((Text.IsName.of_isIdentifier h).not_mem '\n' (by decide)) (by decide) ⟨by decide, by decide⟩
  rw [toList_headerLine]
  exact ⟨hworded.isLine, hworded.not_blank []⟩

end Body

/-! ## What the validator shows -/

namespace Diagnostics.Pattern

theorem blankThenQuoted?_quoted {name : List Char} (rest : List Char) (hne : name ≠ []) (hq : '"' ∉ name) :
    blankThenQuoted? (' ' :: '"' :: (name ++ '"' :: rest)) = some (name, rest) := by
  have hdrop : (' ' :: '"' :: (name ++ '"' :: rest)).dropWhile Text.isBlank = '"' :: (name ++ '"' :: rest) := by
    simp [Text.isBlank]
  unfold blankThenQuoted?
  simp only [hdrop, Text.splitAt?_append '"' name rest hq]
  rw [if_neg (by simp)]

theorem header?_headerLine {type : String} (h : Text.isIdentifier type.toList = true) :
    header? (Body.headerLine type).toList = some (type.toList, "this".toList) := by
  have hname : Text.IsName type.toList := .of_isIdentifier h
  have htype := blankThenQuoted?_quoted " \"this\" \x7b".toList hname.ne_nil (hname.not_mem '"' (by decide))
  have hlabel : blankThenQuoted? " \"this\" \x7b".toList = some ("this".toList, " \x7b".toList) := by decide
  have htext : (Body.headerLine type).toList
      = "resource".toList ++ (' ' :: '"' :: (type.toList ++ '"' :: " \"this\" \x7b".toList)) := by
    simp [Body.headerLine]
  unfold header?
  apply Text.firstFrom_of_some
  simp only [htext, Text.after?_append, Option.bind_some, htype, hlabel, Option.map_some]

end Diagnostics.Pattern

namespace Diagnostic

/-- The line of an argument is understood as an assignment to its name, wherever it stands. -/
theorem assigned?_lineAt (context : Option String) (depth : Nat) {root : Body.Root} {name : String}
    (hr : root.isNamed = true) (h : Text.isIdentifier name.toList = true) :
    assigned? ⟨context, Body.lineAt depth root name⟩ = some name.toList := by
  have hname : Text.IsName name.toList := .of_isIdentifier h
  have hsource := Body.Reference.isPath_text root name hr h
  have htrimmed := Reading.isTrimmed_assigning hname hsource.isTrimmed
  have htrim : Text.trim (Body.lineAt depth root name).toList
      = Reading.assigning name.toList (Body.Reference.text ⟨root, name⟩).toList := by
    have hpad := (Reading.isPad_indent depth).isBlank
    have hbetween := Text.trim_between _ _ [] hpad (by simp) htrimmed.ne_nil htrimmed.head htrimmed.last
    rwa [List.append_nil, ← Body.toList_lineAt] at hbetween
  have hassignment := Reading.assignment?_assigning hname hsource.isTrimmed
  rw [Reading.assignment?, Option.map_eq_some_iff] at hassignment
  obtain ⟨⟨left, right⟩, hcut, hsides⟩ := hassignment
  have hleft : Text.trim left = name.toList := by
    have hside := congrArg (String.toList ∘ Prod.fst) hsides
    simpa using hside
  have hne : name.toList.isEmpty = false := by simpa using hname.ne_nil
  unfold assigned?
  rw [htrim, hcut]
  simp only [hleft, hne, Bool.false_eq_true, if_false]

theorem refusal?_of_line {d : Diagnostic} {type name : String} {depth : Nat} {root : Body.Root}
    (hs : d.severity = "error") (ha : d.address = "") (hn : d.namedAttribute? = none)
    (hsnippet : d.snippet = some ⟨some (Body.headerLine type), Body.lineAt depth root name⟩)
    (htype : Text.isIdentifier type.toList = true) (hr : root.isNamed = true)
    (hname : Text.isIdentifier name.toList = true) :
    d.refusal? = some (type ++ "." ++ "this", name) := by
  have herror : d.isError = true := by simp [isError, hs]
  have howner : d.owner? = some (type ++ "." ++ "this") := by
    simp only [owner?, ha, ne_eq, not_true_eq_false, if_false, hsnippet,
      Diagnostics.Pattern.header?_headerLine htype, Option.map_some, String.ofList_toList]
  have hrefused : d.refusedName? = some name := by
    simp only [refusedName?, hn, hsnippet, Option.bind_some, assigned?_lineAt _ depth hr hname,
      Option.map_some, String.ofList_toList]
  rw [refusal?, if_pos herror, howner, hrefused]

/-- A diagnostic that points at an argument of a requested resource and gives no name itself: it shows the line
that opens the resource and the line of the argument. -/
structure PointsAt (p : Plan) (s : SchemaSet) (d : Diagnostic) (type name : String) : Prop where
  severity : d.severity = "error"
  address : d.address = ""
  unnamed : d.namedAttribute? = none
  snippet : ∃ r schema a, r ∈ p.requests ∧ r.type = type ∧ p.schemaOf s r = .ok schema ∧
    (name, a) ∈ schema.block.attributes ∧
    d.snippet = some ⟨some (Body.headerLine type), Body.argumentLine r.mode name⟩

end Diagnostic

/-! ## The module of named schemas -/

namespace Plan

variable {p : Plan} {s : SchemaSet}

theorem mem_lines_main {r : Request} (hr : r ∈ p.requests) {l : String} (hl : l ∈ p.mainLines s r)
    (hfull : Text.allBlank l.toList = false) (hline : Text.IsLine l.toList) :
    l.toList ∈ Text.lines (p.generate s).main.toList := by
  apply Layout.mem_lines_tidy _ hfull hline
  rw [Text.toList_ofLines]
  apply Text.mem_lines_unlines _ hline
  exact List.mem_map.mpr ⟨l, List.mem_flatMap.mpr ⟨r, hr, hl⟩, rfl⟩

end Plan

namespace Refinement

/-- Diagnostics that point at these attributes of resources, each at least once, and at nothing else. -/
structure PointAt (p : Plan) (s : SchemaSet) (ds : List Diagnostic) (pairs : List (String × String)) : Prop where
  only : ∀ d ∈ ds, ∃ pair ∈ pairs, d.PointsAt p s pair.1 pair.2
  every : ∀ pair ∈ pairs, ∃ d ∈ ds, d.PointsAt p s pair.1 pair.2

variable {p : Plan} {s : SchemaSet} {ds : List Diagnostic} {pairs : List (String × String)}

theorem refusal?_of_pointsAt (hs : s.isNamed = true) {d : Diagnostic} {type name : String}
    (h : d.PointsAt p s type name) :
    Text.isIdentifier type.toList = true ∧ d.refusal? = some (type ++ "." ++ "this", name) := by
  obtain ⟨r, schema, a, -, rfl, hschema, ha, hsnippet⟩ := h.snippet
  obtain ⟨htype, hblock⟩ := Plan.isNamed_of_schemaOf hs hschema
  have hname := (Block.isNamed_attribute hblock ha).1
  exact ⟨htype, Diagnostic.refusal?_of_line h.severity h.address h.unnamed hsnippet htype
    (Body.isNamed_rootOf r.mode) hname⟩

theorem not_point_of_isIdentifier {name : String} (h : Text.isIdentifier name.toList = true) :
    '.' ∉ name.toList :=
  (Text.IsName.of_isIdentifier h).not_mem '.' (by decide)

/-- What such diagnostics refuse is what they point at. -/
theorem mem_refusedFor_iff (hs : s.isNamed = true) (h : PointAt p s ds pairs) (type name : String)
    (htype : Text.isIdentifier type.toList = true) :
    name ∈ SchemaSet.refusedFor (Refusals.ofDiagnostics ds) type ↔ (type, name) ∈ pairs := by
  rw [SchemaSet.mem_refusedFor]
  constructor
  -- Every refusal comes from a line of the module, so its address is a type with the label of a resource.
  · rintro ⟨address, haddress, hmentions⟩
    obtain ⟨d, hd, hrefusal⟩ := (Refusals.mentions_ofDiagnostics ds address name).mp hmentions
    obtain ⟨⟨type', name'⟩, hpair, hpoints⟩ := h.only d hd
    obtain ⟨htype', hrefusal'⟩ := refusal?_of_pointsAt hs hpoints
    rw [hrefusal'] at hrefusal
    cases hrefusal
    have hsame := (SchemaSet.addresses_labelled type' type "this" (not_point_of_isIdentifier htype')
      (not_point_of_isIdentifier htype)).mp haddress
    rw [hsame]
    exact hpair
  · intro hpair
    obtain ⟨d, hd, hpoints⟩ := h.every _ hpair
    refine ⟨type ++ "." ++ "this", ?_, ?_⟩
    · exact (SchemaSet.addresses_labelled type type "this" (not_point_of_isIdentifier htype)
        (not_point_of_isIdentifier htype)).mpr rfl
    · exact (Refusals.mentions_ofDiagnostics ds _ name).mpr ⟨d, hd, (refusal?_of_pointsAt hs hpoints).2⟩

theorem ofDiagnostics_ne_nil (hs : s.isNamed = true) (h : PointAt p s ds pairs) (hne : pairs ≠ []) :
    Refusals.ofDiagnostics ds ≠ [] := by
  obtain ⟨pair, rest, rfl⟩ := List.exists_cons_of_ne_nil hne
  obtain ⟨d, hd, hpoints⟩ := h.every pair List.mem_cons_self
  have hmentions := (Refusals.mentions_ofDiagnostics ds _ _).mpr ⟨d, hd, (refusal?_of_pointsAt hs hpoints).2⟩
  intro he
  rw [he] at hmentions
  exact Refusals.not_mentions_nil _ _ hmentions

theorem shown_in_main (hs : s.isNamed = true) {d : Diagnostic} {type name : String}
    (h : d.PointsAt p s type name) :
    ∃ context code, d.snippet = some ⟨some context, code⟩ ∧
      context.toList ∈ Text.lines (p.generate s).main.toList ∧
      code.toList ∈ Text.lines (p.generate s).main.toList := by
  obtain ⟨r, schema, a, hr, rfl, hschema, ha, hsnippet⟩ := h.snippet
  obtain ⟨htype, hblock⟩ := Plan.isNamed_of_schemaOf hs hschema
  have hname := (Block.isNamed_attribute hblock ha).1
  have hlines : p.mainLines s r
      = Body.resourceLines r.type schema.block r.mode (Naming.variableName r.type) := by
    rw [Plan.mainLines, hschema]
  obtain ⟨hheader, hheaderFull⟩ := Body.isLine_headerLine htype
  obtain ⟨hline, hfull⟩ := Body.isLine_lineAt 1 (Body.isNamed_rootOf r.mode) hname
  refine ⟨_, _, hsnippet, ?_, ?_⟩
  · exact Plan.mem_lines_main hr (by rw [hlines]; exact Body.headerLine_mem _ _ _ _) hheaderFull hheader
  · exact Plan.mem_lines_main hr (by rw [hlines]; exact Body.argumentLine_mem _ _ _ ha) hfull hline

/-- When the validator points at the lines of some attributes and is content afterwards, exactly these attributes
are dropped, wherever their types occur, and the directory holds the module of what is left. -/
theorem run_drops_what_is_pointed_at (directory : String) (answer : List Call → Call → Except Error String)
    (p : Plan) (s : SchemaSet) (w : World) (pairs : List (String × String)) (first second : String)
    (v₁ v₂ : Validation) (hp : p.requests ≠ []) (hs : s.isNamed = true) (hpairs : pairs ≠ [])
    (hw : ∀ name ∈ [mainFile, variablesFile],
      ∃ text w', w.writeText (Path.join directory name) text = .ok w')
    (h₁ : ∀ call, answer w.calls call = .ok first)
    (h₂ : ∀ before call, answer (w.calls ++ [before]) call = .ok second)
    (hv₁ : Validation.read first = .ok v₁) (hv₂ : Validation.read second = .ok v₂)
    (hpoint : PointAt p s v₁.diagnostics pairs) (hclean : v₂.diagnostics = []) :
    (∀ d ∈ v₁.diagnostics, ∃ context code, d.snippet = some ⟨some context, code⟩ ∧
      context.toList ∈ Text.lines (p.generate s).main.toList ∧
      code.toList ∈ Text.lines (p.generate s).main.toList) ∧
    ∃ refused w',
      (run (.answering directory answer) p s).run w = ((s.without pairs, .ok ⟨refused, []⟩), w') ∧
      (p.generate (s.without pairs)).StandIn (Path.locate w.here directory) w'.files := by
  have hverdict₁ : ∀ call, verdict (answer w.calls call) = .ok (Refusals.ofDiagnostics v₁.diagnostics) := by
    intro call
    rw [h₁, verdict, hv₁]
  have hverdict₂ : ∀ before call, verdict (answer (w.calls ++ [before]) call) = .ok [] := by
    intro before call
    rw [h₂, verdict, hv₂]
    simp only [hclean]
    rfl
  have hdropped : s.dropRefused (Refusals.ofDiagnostics v₁.diagnostics) = s.without pairs :=
    SchemaSet.dropRefused_eq_without hs (mem_refusedFor_iff hs hpoint)
  refine ⟨?_, ?_⟩
  · intro d hd
    obtain ⟨pair, -, hpoints⟩ := hpoint.only d hd
    exact shown_in_main hs hpoints
  · obtain ⟨files, log, hfirst, -, hready⟩ :=
      run_attempt directory answer p s w hp rfl (Publish.isReady_of_writeText rfl hw)
    rw [hverdict₁] at hfirst
    obtain ⟨log', hrun⟩ := run_of_refused hfirst (ofDiagnostics_ne_nil hs hpoint hpairs)
    obtain ⟨files', log'', hsecond, hstand, -⟩ := run_attempt directory answer p (s.without pairs)
      { w with files := files, calls := w.calls ++ [⟨Path.locate w.here directory, ["validate"], files⟩], log := log' }
      hp rfl hready
    rw [hverdict₂] at hsecond
    rw [hdropped] at hrun
    exact ⟨_, _, hrun _ _ hsecond, hstand⟩

def printedValid : String := "\x7b\"valid\":true,\"error_count\":0,\"warning_count\":0,\"diagnostics\":[]\x7d"

theorem read_printedValid : Validation.read printedValid = .ok ⟨true, 0, 0, []⟩ := by decide +kernel

theorem sizeRefused_points : PointAt oneRequest twoProviders sizeRefused.diagnostics [("vm", "size")] := by
  have hpoints : Diagnostic.PointsAt oneRequest twoProviders
      ⟨"error", "", "", "", some ⟨some (Body.headerLine "vm"), Body.argumentLine .single "size"⟩⟩ "vm" "size" :=
    ⟨rfl, rfl, by decide, ⟨_, _, _, List.mem_cons_self, rfl, rfl, List.mem_cons_of_mem _ List.mem_cons_self, rfl⟩⟩
  constructor
  · intro d hd
    rw [List.mem_singleton.mp hd]
    exact ⟨_, List.mem_cons_self, hpoints⟩
  · intro pair hpair
    rw [List.mem_singleton.mp hpair]
    exact ⟨_, List.mem_cons_self, hpoints⟩

theorem run_drops_what_is_pointed_at_size :
    (∀ d ∈ sizeRefused.diagnostics, ∃ context code, d.snippet = some ⟨some context, code⟩ ∧
      context.toList ∈ Text.lines (oneRequest.generate twoProviders).main.toList ∧
      code.toList ∈ Text.lines (oneRequest.generate twoProviders).main.toList) ∧
    ∃ refused w',
      (run (.answering "out" fun before _ => if before = [] then .ok printedSizeRefused else .ok printedValid)
        oneRequest twoProviders).run emptyOut = ((twoProviders.without [("vm", "size")], .ok ⟨refused, []⟩), w') ∧
      (oneRequest.generate (twoProviders.without [("vm", "size")])).StandIn ["out"] w'.files :=
  run_drops_what_is_pointed_at "out" _ oneRequest twoProviders emptyOut [("vm", "size")] printedSizeRefused
    printedValid sizeRefused ⟨true, 0, 0, []⟩ (by simp [oneRequest]) (by decide) (by simp) emptyOut_writes
    (fun _ => rfl) (fun _ _ => rfl) read_printedSizeRefused read_printedValid sizeRefused_points rfl

end Refinement
end ModuleScaffold
