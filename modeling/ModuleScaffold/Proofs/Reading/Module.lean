import ModuleScaffold.Module
import ModuleScaffold.Proofs.Layout
import ModuleScaffold.Proofs.Naming
import ModuleScaffold.Proofs.Reading.Body
import ModuleScaffold.Proofs.Reading.Inputs
import ModuleScaffold.Proofs.Table

/-! # A module, read back

The files of a module hold what is written for its requests, one after the other. Main statement: they read back as
the resources and variables of the requests whose schemas are known, in the order of the requests. -/

namespace ModuleScaffold

/-! ## Files that are laid out -/

namespace Reading

theorem Cursor.next_of_allBlank (c : Cursor) {l : List Char} (h : Text.allBlank l = true) : c.next l = some c := by
  rw [next, Text.trimLeft_of_allBlank h]
  rfl

theorem Cursor.run_fullLines (c : Cursor) (ls : List (List Char)) : c.run (Layout.fullLines ls) = c.run ls := by
  induction ls generalizing c with
  | nil => rfl
  | cons l ls ih =>
    rw [Layout.fullLines, List.filter_cons, run]
    cases hl : Text.allBlank l with
    | true =>
      rw [c.next_of_allBlank hl, Option.bind_some, if_neg (by decide)]
      exact ih c
    | false =>
      rw [if_pos (by decide), run]
      cases c.next l with
      | none => rfl
      | some c => exact ih c

/-- The layout of a file takes nothing away that is read. -/
theorem Reads.parts_tidy {s : String} {ps : List Part} (h : Reads s.toList ps) :
    Reading.parts (Layout.tidy s) = some ps := by
  obtain ⟨ls, hs, hls, hps⟩ := h
  have hkept : ∀ l ∈ Layout.keptLines ls, Text.IsLine l := fun l hl => Layout.isLine_of_mem_keptLines hl hls
  rw [Reading.parts, Layout.tidy, String.toList_ofList, hs, Text.lines_unlines hls, Text.lines_unlines hkept,
    ← Cursor.run_fullLines, Layout.fullLines_keptLines, Cursor.run_fullLines, hps]
  simp

theorem Yields.tidy {α : Type} {read? : Part → Option α} {s : String} {as : List α} (h : Yields read? s.toList as) :
    (Reading.parts (Layout.tidy s)).bind (·.mapM read?) = some as := by
  obtain ⟨ps, hps, has⟩ := h
  rw [hps.parts_tidy, Option.bind_some, has]

end Reading

/-! ## Resources -/

namespace Body

open Reading (Part)

/-- A resource of a file. -/
structure Resource where
  type : String
  label : String
  /-- What it is repeated for. -/
  iteration : Option String
  entries : List Entry

namespace Resource

/-- The type and the label in a line that opens a resource. -/
def labels? (opening : List Char) : Option (String × String) :=
  (Text.after? ("resource".toList ++ [' ', '"']) opening).bind fun rest =>
  (Text.splitAt? '"' rest).bind fun (type, rest) =>
  (Text.after? [' ', '"'] rest).bind fun rest =>
  (Text.splitAt? '"' rest).map fun (label, _) => (String.ofList type, String.ofList label)

/-- What a resource is repeated for, if its body begins with that. An argument of the same name has a reference for
its value, and that begins with no brace. -/
def iteration? : List Part → Option String
  | .line text :: _ =>
    (Reading.assignment? text).bind fun (key, value) =>
      if key = "for_each" ∧ value.toList.head? = some '\x7b' then some value else none
  | _ => none

def ofPart? : Part → Option Resource
  | .line _ => none
  | .group opening ps =>
    (labels? opening).bind fun (type, label) =>
      match iteration? ps with
      | some each => (Entry.ofParts ps.tail).map (⟨type, label, some each, ·⟩)
      | none => (Entry.ofParts ps).map (⟨type, label, none, ·⟩)

/-- The resources of a file. -/
def readAll (s : String) : Option (List Resource) := (Reading.parts s).bind (·.mapM ofPart?)

/-- What the resource of a request is to be read back as. -/
def ofRequest (r : Request) (schema : ResourceSchema) : Resource :=
  { type := r.type
    label := "this"
    iteration := match r.mode with
      | .single => none
      | .multiple => some (Body.iteration (Naming.variableName r.type))
    entries := Entry.ofStatements (statements (rootOf r.mode) schema.block.items) }

theorem labels?_opening {type : List Char} (h : '"' ∉ type) :
    labels? (Reading.blockOpening "resource" type " \"this\" \x7b".toList) = some (String.ofList type, "this") := by
  have hopening : Reading.blockOpening "resource" type " \"this\" \x7b".toList
      = ("resource".toList ++ [' ', '"']) ++ (type ++ '"' :: ([' ', '"'] ++ ("this".toList ++ '"' :: [' ', '\x7b']))) := by
    simp [Reading.blockOpening]
  rw [labels?, hopening]
  simp only [Text.after?_append, Option.bind_some, Text.splitAt?_append '"' _ _ h,
    Text.splitAt?_append '"' "this".toList _ (by decide), Option.map_some]
  rfl

theorem isPath_of_mem (root : Root) (items : List Item) (hr : root.isNamed = true)
    (hi : Item.areNamed items = true) {name value : String}
    (h : Entry.assign name value ∈ Entry.ofStatements (statements root items)) : Reading.IsPath value.toList := by
  induction root, items using statements.induct with
  | case1 root =>
    rw [statements, Entry.ofStatements] at h
    cases h
  | case2 root name' a rest ih =>
    simp only [Item.areNamed, Bool.and_eq_true] at hi
    rw [statements, Entry.ofStatements] at h
    rcases List.mem_cons.mp h with h | h
    · cases h
      exact Reference.isPath_text root name hr hi.1.1
    · exact ih hr hi.2 h
  | case3 root name' nesting rest ih =>
    simp only [Item.areNamed, Bool.and_eq_true] at hi
    rw [statements, Entry.ofStatements] at h
    exact ih hr hi.2 h
  | case4 root name' nesting description items rest ihi ih =>
    simp only [Item.areNamed, Bool.and_eq_true] at hi
    rw [statements] at h
    split at h
    · rw [Entry.ofStatements] at h
      rcases List.mem_cons.mp h with h | h
      · cases h
      · exact ih hr hi.2 h
    · rw [Entry.ofStatements] at h
      exact ih hr hi.2 h

/-- A body that begins with no iteration is not taken for one that does. -/
theorem iteration?_eq_none {root : Root} {items : List Item} {ps : List Part} (hr : root.isNamed = true)
    (hi : Item.areNamed items = true) (h : Entry.ofParts ps = some (Entry.ofStatements (statements root items))) :
    iteration? ps = none := by
  match ps with
  | [] => rfl
  | .group _ _ :: _ => rfl
  | .line text :: rest =>
    rw [Entry.ofParts] at h
    split at h
    · next name value entries htext _ =>
      have hmem : Entry.assign name value ∈ Entry.ofStatements (statements root items) := by
        rw [← Option.some.inj h]
        exact List.mem_cons_self
      have hpath := isPath_of_mem root items hr hi hmem
      have hhead : value.toList.head? ≠ some '\x7b' := fun he =>
        hpath.not_mem '\x7b' (by decide) (by decide) (List.mem_of_mem_head? he)
      rw [iteration?, htext, Option.bind_some]
      exact if_neg fun hboth => hhead hboth.2
    · cases h

theorem yields_resourceLines (r : Request) (schema : ResourceSchema) (ht : Text.isIdentifier r.type.toList = true)
    (hb : schema.block.isNamed = true) :
    Reading.Yields ofPart?
      (Text.charsOf (resourceLines r.type schema.block r.mode (Naming.variableName r.type)))
      [ofRequest r schema] := by
  have hitems : Item.areNamed schema.block.items = true := by rw [areNamed_items]; exact hb
  have hroot := isNamed_rootOf r.mode
  have hname : Text.IsName r.type.toList := .of_isIdentifier ht
  have hlabels := labels?_opening (hname.not_mem '"' (by decide))
  obtain ⟨ps, hreads, hparts⟩ := reads_lines (rootOf r.mode) schema.block.items hroot hitems 1
  rw [charsOf_resourceLines]
  cases hmode : r.mode with
  | single =>
    rw [hmode] at hroot hparts hreads
    refine ⟨_, reads_resource hname hreads, ?_⟩
    have hone : ofPart? (.group (Reading.blockOpening "resource" r.type.toList " \"this\" \x7b".toList) ps)
        = some (ofRequest r schema) := by
      rw [ofPart?, hlabels, Option.bind_some, iteration?_eq_none hroot hitems hparts]
      simp [hparts, ofRequest, hmode]
    rw [List.mapM_cons, hone]
    rfl
  | multiple =>
    rw [hmode] at hroot hparts hreads
    have heach := reads_iteration (Naming.variableName r.type) (Naming.not_mem_variableName ht '\n' (by decide))
    refine ⟨_, reads_resource hname (heach.append hreads), ?_⟩
    have hkey := Reading.assignment?_assigning (.of_isIdentifier (by decide) : Text.IsName "for_each".toList)
      (isTrimmed_iteration (Naming.variableName r.type))
    have hbrace : (Body.iteration (Naming.variableName r.type)).toList.head? = some '\x7b' := by
      rw [toList_iteration]
      rfl
    have hone : ofPart? (.group (Reading.blockOpening "resource" r.type.toList " \"this\" \x7b".toList)
        (.line (Reading.assigning "for_each".toList (Body.iteration (Naming.variableName r.type)).toList) :: ps))
        = some (ofRequest r schema) := by
      rw [ofPart?, hlabels, Option.bind_some, iteration?, hkey, Option.bind_some]
      simp [hbrace, hparts, ofRequest, hmode]
    rw [List.singleton_append, List.mapM_cons, hone]
    rfl

end Resource

end Body

/-! ## Variables -/

namespace Inputs

/-- The variables of a file. -/
def readAll (s : String) : Option (List Declaration) := (Reading.parts s).bind (·.mapM Declaration.declared?)

/-- What the variables of a request are to be read back as. -/
def ofRequest (comments : Bool) (r : Request) (schema : ResourceSchema) : List Declaration :=
  (variablesOf comments schema.block r.mode (Naming.variableName r.type)).filterMap Variable.declaration?

theorem holds_resourceLines (comments : Bool) (r : Request) (schema : ResourceSchema)
    (ht : Text.isIdentifier r.type.toList = true) (hb : schema.block.isNamed = true) :
    Holds (Text.charsOf (resourceLines comments schema.block r.mode (Naming.variableName r.type)))
      (ofRequest comments r schema) := by
  have hitems : Item.areNamed schema.block.items = true := by rw [areNamed_items]; exact hb
  unfold resourceLines ofRequest
  cases r.mode with
  | single => exact holds_variables comments schema.block.items hitems
  | multiple =>
    have hobject := holds_object none .list true (Naming.not_mem_variableName ht '\n' (by decide))
      (Naming.not_mem_variableName ht '"' (by decide)) .nil (declares_fields comments schema.block.items hitems 2)
    simpa [variablesOf, Variable.lines, Variable.declaration?, commentLines] using hobject

end Inputs

/-! ## Requests whose schemas are known -/

namespace Plan

variable {p : Plan} {s : SchemaSet}

/-- The requests for which the provider has a schema, in their order. -/
def found (p : Plan) (s : SchemaSet) : List (Request × ResourceSchema) :=
  p.requests.filterMap fun r => (s.resource? (p.addressOf r) r.type).map (r, ·)

theorem schemaOf_eq_ok_iff {r : Request} {schema : ResourceSchema} :
    p.schemaOf s r = .ok schema ↔ s.resource? (p.addressOf r) r.type = some schema := by
  unfold schemaOf SchemaSet.resource?
  cases Table.find? (p.addressOf r) s.providers with
  | none => simp
  | some resources =>
    simp only [Option.bind_some]
    cases Table.find? r.type resources with
    | none => simp
    | some schema' => simp

theorem mem_found {e : Request × ResourceSchema} :
    e ∈ p.found s ↔ e.1 ∈ p.requests ∧ p.schemaOf s e.1 = .ok e.2 := by
  obtain ⟨r, schema⟩ := e
  simp only [found, List.mem_filterMap, Option.map_eq_some_iff, Prod.mk.injEq, schemaOf_eq_ok_iff]
  constructor
  · rintro ⟨r', hr', schema', hschema', rfl, rfl⟩
    exact ⟨hr', hschema'⟩
  · rintro ⟨hr, hschema⟩
    exact ⟨r, hr, schema, hschema, rfl, rfl⟩

/-- What is written request by request is written for the requests whose schemas are known. -/
theorem flatMap_found {write : Request → List String} {lines : Request × ResourceSchema → List String}
    (hok : ∀ r schema, p.schemaOf s r = .ok schema → write r = lines (r, schema))
    (herror : ∀ r reason, p.schemaOf s r = .error reason → write r = []) :
    p.requests.flatMap write = (p.found s).flatMap lines := by
  unfold found
  induction p.requests with
  | nil => rfl
  | cons r rest ih =>
    rw [List.flatMap_cons, List.filterMap_cons, ih]
    cases hschema : p.schemaOf s r with
    | ok schema =>
      rw [schemaOf_eq_ok_iff.mp hschema, hok r schema hschema]
      rfl
    | error reason =>
      have hnone : s.resource? (p.addressOf r) r.type = none := by
        cases hsome : s.resource? (p.addressOf r) r.type with
        | none => rfl
        | some schema =>
          rw [schemaOf_eq_ok_iff.mpr hsome] at hschema
          cases hschema
      rw [hnone, herror r reason hschema]
      rfl

theorem mainLines_of_error {r : Request} {reason : Absence} (h : p.schemaOf s r = .error reason) :
    p.mainLines s r = [] := by
  rw [mainLines, h]

theorem variableLines_of_error {r : Request} {reason : Absence} (h : p.schemaOf s r = .error reason) :
    p.variableLines s r = [] := by
  rw [variableLines, h]

theorem flatMap_mainLines (p : Plan) (s : SchemaSet) :
    p.requests.flatMap (p.mainLines s) = (p.found s).flatMap fun e =>
      Body.resourceLines e.1.type e.2.block e.1.mode (Naming.variableName e.1.type) :=
  flatMap_found (fun r schema hr => by rw [mainLines, hr]) fun _ _ => mainLines_of_error

theorem flatMap_variableLines (p : Plan) (s : SchemaSet) :
    p.requests.flatMap (p.variableLines s) = (p.found s).flatMap fun e =>
      Inputs.resourceLines p.comments e.2.block e.1.mode (Naming.variableName e.1.type) :=
  flatMap_found (fun r schema hr => by rw [variableLines, hr]) fun _ _ => variableLines_of_error

theorem isNamed_of_schemaOf {r : Request} {schema : ResourceSchema} (hs : s.isNamed = true)
    (h : p.schemaOf s r = .ok schema) :
    Text.isIdentifier r.type.toList = true ∧ schema.block.isNamed = true := by
  unfold schemaOf at h
  split at h
  · cases h
  · next resources hfind =>
    split at h
    · cases h
    · next schema' hresource =>
      cases h
      exact SchemaSet.isNamed_resource hs (Table.mem_of_find? hfind) (Table.mem_of_find? hresource)

/-- The types of all these requests are identifiers, and so are the names in their schemas. -/
def FindsNamed (p : Plan) (s : SchemaSet) : Prop :=
  ∀ e ∈ p.found s, Text.isIdentifier e.1.type.toList = true ∧ e.2.block.isNamed = true

theorem findsNamed_of_isNamed (hs : s.isNamed = true) : p.FindsNamed s :=
  fun _ he => isNamed_of_schemaOf hs (mem_found.mp he).2

/-- The file of the resources reads back as the resources of the requests. -/
theorem read_main (h : p.FindsNamed s) :
    Body.Resource.readAll (p.generate s).main
      = some ((p.found s).map fun e => Body.Resource.ofRequest e.1 e.2) := by
  have hyields := Reading.Yields.flatMap fun e he => Body.Resource.yields_resourceLines e.1 e.2 (h e he).1 (h e he).2
  rw [← flatMap_mainLines, ← Text.toList_ofLines, ← List.map_eq_flatMap] at hyields
  exact hyields.tidy

/-- The file of the variables reads back as the variables of the requests. -/
theorem read_inputs (h : p.FindsNamed s) :
    Inputs.readAll (p.generate s).inputs
      = some ((p.found s).flatMap fun e => Inputs.ofRequest p.comments e.1 e.2) := by
  have hyields := Reading.Yields.flatMap fun e he =>
    Inputs.holds_resourceLines p.comments e.1 e.2 (h e he).1 (h e he).2
  rw [← flatMap_variableLines, ← Text.toList_ofLines] at hyields
  exact hyields.tidy

end Plan

end ModuleScaffold
