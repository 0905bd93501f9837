import ModuleScaffold.Proofs.Reading.Module
import ModuleScaffold.Proofs.Syntax.Resource
import ModuleScaffold.Proofs.Syntax.Variables

/-! # Modules that parse

Main statement: both files of a module are accepted as configurations, whatever the descriptions in the schemas say,
by every reader that nests the brackets in them, and by no other. It takes of the names that they are free, and of the
libraries that a plural of an identifier is one and that a description between quotes is a literal (as it is unless a
marker in it is crossed). -/

namespace ModuleScaffold

open Hcl.Syntax

/-! ## Requests -/

/-- Whether a type is an identifier, and the part behind its first underscore begins as one. -/
def Naming.isSplit (type : String) : Bool :=
  Text.isIdentifier type.toList &&
    match Text.splitAt? '_' type.toList with
    | some (_, c :: _) => Text.isIdentifierStart c
    | _ => true

/-- The plural of the part of a type that stands for its collection is an identifier if that part is one. -/
def Naming.KeepsIdentifier (type : String) : Prop :=
  ∀ provider rest, Text.splitAt? '_' type.toList = some (provider, rest) → Text.isIdentifier rest = true →
    Text.isIdentifier (plural (String.ofList rest)).toList = true

theorem Naming.isIdentifier_variableName {type : String} (ht : isSplit type = true) (hp : KeepsIdentifier type) :
    Text.isIdentifier (variableName type).toList = true := by
  rw [isSplit, Bool.and_eq_true] at ht
  obtain ⟨htype, hpart⟩ := ht
  unfold variableName
  split
  · next provider c rest hsplit =>
    have hc : Text.isIdentifierStart c = true := by rwa [hsplit] at hpart
    have hrest : ∀ d ∈ rest, Text.isIdentifierPart d = true := by
      obtain ⟨first, others, htext, -, hothers⟩ := isIdentifier_cons htype
      have hwhole := (Text.splitAt?_eq_some hsplit).1
      intro d hd
      apply hothers
      have htail : others = (provider ++ '_' :: c :: rest).tail := by rw [← hwhole, htext, List.tail_cons]
      rw [htail]
      cases provider with
      | nil => exact List.mem_cons_of_mem _ hd
      | cons e provider => simp [hd]
    apply hp provider (c :: rest) hsplit
    rw [Text.isIdentifier, hc, List.all_eq_true.mpr hrest]
    rfl
  · exact htype

namespace SchemaSet

/-- Whether a module can be written for every resource: no attribute is called as the repetition of a resource is. -/
def isWritable (s : SchemaSet) : Bool :=
  s.providers.all fun (_, resources) => resources.all fun (_, r) =>
    r.block.isWritable && r.block.attributes.all fun (name, _) => name != "for_each"

theorem isWritable_resource {s : SchemaSet} (hs : s.isWritable = true) {provider type : String}
    {schema : ResourceSchema} (h : s.resource? provider type = some schema) :
    schema.block.isWritable = true ∧ ∀ a ∈ schema.block.attributes, a.1 ≠ "for_each" := by
  obtain ⟨resources, hprovider, hresource⟩ := Option.bind_eq_some_iff.mp h
  unfold isWritable at hs
  have hresources := List.all_eq_true.mp hs _ (Table.mem_of_find? hprovider)
  have hblock := List.all_eq_true.mp hresources _ (Table.mem_of_find? hresource)
  rw [Bool.and_eq_true, List.all_eq_true] at hblock
  exact ⟨hblock.1, fun a ha => by simpa using hblock.2 a ha⟩

end SchemaSet

namespace Plan

variable {p : Plan} {s : SchemaSet}

/-- The brackets that stand in one another in the resources that the requests find. -/
def mainBrackets (p : Plan) (s : SchemaSet) : Nat :=
  ((p.found s).map fun e => Body.resourceBrackets e.2.block e.1.mode).foldr max 0

/-- The brackets that stand in one another in the variables for these resources. -/
def inputBrackets (p : Plan) (s : SchemaSet) : Nat :=
  ((p.found s).map fun e =>
    Inputs.resourceBrackets p.comments e.2.block e.1.mode (Naming.variableName e.1.type)).foldr max 0

theorem spells_main (hs : s.isWritable = true) (hr : ∀ r ∈ p.requests, Naming.isSplit r.type = true)
    (hp : ∀ r ∈ p.requests, Naming.KeepsIdentifier r.type) :
    Spells BodyReads (p.mainBrackets s) [] (Text.charsOf (p.requests.flatMap (p.mainLines s))) := by
  have hmain : p.requests.flatMap (p.mainLines s) = (p.found s).flatMap fun e =>
      Body.resourceLines e.1.type e.2.block e.1.mode (Naming.variableName e.1.type) :=
    flatMap_found (fun r schema hr => by rw [mainLines, hr]) (fun r reason hr => by rw [mainLines, hr])
  rw [hmain]
  refine Spells.flatMap isSequence_body fun e he => ?_
  obtain ⟨hrequest, hschema⟩ := mem_found.mp he
  obtain ⟨hblock, heach⟩ := SchemaSet.isWritable_resource hs (schemaOf_eq_ok_iff.mp hschema)
  have htype := hr e.1 hrequest
  exact Body.spells_resourceLines e.1.mode (by rw [Naming.isSplit, Bool.and_eq_true] at htype; exact htype.1) hblock
    heach (Naming.isIdentifier_variableName htype (hp e.1 hrequest))

theorem spells_inputs (hs : s.isWritable = true) (hr : ∀ r ∈ p.requests, Naming.isSplit r.type = true)
    (hp : ∀ r ∈ p.requests, Naming.KeepsIdentifier r.type)
    (hd : ∀ e ∈ p.found s, e.1.mode = .single → ∀ a ∈ e.2.block.attributes, Inputs.DescriptionRead a.2) :
    Spells BodyReads (p.inputBrackets s) [] (Text.charsOf (p.requests.flatMap (p.variableLines s))) := by
  have hinputs : p.requests.flatMap (p.variableLines s) = (p.found s).flatMap fun e =>
      Inputs.resourceLines p.comments e.2.block e.1.mode (Naming.variableName e.1.type) :=
    flatMap_found (fun r schema hr => by rw [variableLines, hr]) (fun r reason hr => by rw [variableLines, hr])
  rw [hinputs]
  refine Spells.flatMap isSequence_body fun e he => ?_
  obtain ⟨hrequest, hschema⟩ := mem_found.mp he
  exact Inputs.spells_resourceLines p.comments (SchemaSet.isWritable_resource hs (schemaOf_eq_ok_iff.mp hschema)).1
    (Naming.isIdentifier_variableName (hr e.1 hrequest) (hp e.1 hrequest)) (hd e he)

/-- Both files of a module are accepted by a reader exactly where it nests as many brackets as they have, and so by the
checking reader. What `hp` and `hd` say is assumed of the libraries: that a plural of an identifier is an identifier,
and that a description between quotes is read as a literal. The latter holds of every description without a crossed
marker, by `Inputs.descriptionRead_of_isUncrossed`. -/
theorem accepts_files (p : Plan) (s : SchemaSet) (hs : s.isWritable = true)
    (hr : ∀ r ∈ p.requests, Naming.isSplit r.type = true) (hp : ∀ r ∈ p.requests, Naming.KeepsIdentifier r.type)
    (hd : ∀ e ∈ p.found s, e.1.mode = .single → ∀ a ∈ e.2.block.attributes, Inputs.DescriptionRead a.2) :
    (∀ level, (acceptsWithin level (p.generate s).main = true ↔ p.mainBrackets s ≤ level) ∧
      (acceptsWithin level (p.generate s).inputs = true ↔ p.inputBrackets s ≤ level)) ∧
    (accepts (p.generate s).main = true ↔ p.mainBrackets s ≤ maxLevel) ∧
    (accepts (p.generate s).inputs = true ↔ p.inputBrackets s ≤ maxLevel) := by
  have hmain : ∀ level, acceptsWithin level (p.generate s).main = true ↔ p.mainBrackets s ≤ level :=
    Spells.accepts_tidy_iff (by rw [Text.toList_ofLines]; exact spells_main hs hr hp)
  have hinputs : ∀ level, acceptsWithin level (p.generate s).inputs = true ↔ p.inputBrackets s ≤ level :=
    Spells.accepts_tidy_iff (by rw [Text.toList_ofLines]; exact spells_inputs hs hr hp hd)
  refine ⟨fun level => ⟨hmain level, hinputs level⟩, ?_, ?_⟩
  · rw [accepts_eq, hmain]
  · rw [accepts_eq, hinputs]

/-- A disk whose descriptions hold quotes, line endings, escapes and the marks of templates and comments. -/
def quotedDisk : ResourceSchema :=
  ⟨1, .mk
    [("labels", ⟨some (.map (.object [("key", .string), ("value", .set .number)])), "a \"b\" \\ c", false, true, false⟩),
      ("size", ⟨some .number, "in \x24\x7bGB\x7d,\r\nnot %\x7b if MB \x7d */ # $$\x7bx\x7d", true, false, false⟩)]
    [("lock", ⟨.single, 0, 1⟩, some (.mk [("owner", ⟨none, "*/ \"", true, false, false⟩)]
        [("hook", ⟨.set, 1, 0⟩, some (.mk [("port", ⟨some .any, "\n", false, true, false⟩)] [] ""))] "who\nholds it")),
      ("raw", ⟨.map, 0, 0⟩, none)] ""⟩

def quotedSchemas : SchemaSet := ⟨"1.0", [("host/hashicorp/aws", [("aws_disk", quotedDisk)])]⟩

def quotedRequest (mode : Mode) : Request := ⟨"aws_disk", mode, ⟨"hashicorp", "aws", ">= 0"⟩⟩

def quotedPlan : Plan := ⟨[quotedRequest .single, quotedRequest .multiple], "host", true⟩

theorem found_quoted :
    quotedPlan.found quotedSchemas = [(quotedRequest .single, quotedDisk), (quotedRequest .multiple, quotedDisk)] := rfl

/-- The guard of the inner block stands deepest in the resources, the type of its field in the variables. -/
theorem brackets_quoted :
    quotedPlan.mainBrackets quotedSchemas = 6 ∧ quotedPlan.inputBrackets quotedSchemas = 11 := by
  unfold mainBrackets inputBrackets
  simp only [found_quoted, quotedDisk, quotedRequest, Body.resourceBrackets, Inputs.resourceBrackets,
    Inputs.variablesOf, Block.items, nestedItems, Item.sort_eq_insertionSort, List.map_cons, List.map_nil]
  simp [List.insertionSort, List.orderedInsert, Item.before, Item.name, Block.description, NestingMode.isSupported,
    Nesting.isOptional, Nesting.holdsOne, Body.statements, Body.brackets, Body.iterationBrackets, Inputs.variableOf,
    Inputs.fields, Inputs.brackets, Inputs.Variable.brackets, Inputs.Holder.ofMode?, Inputs.Holder.brackets,
    Inputs.optionalBrackets, AttributeType.brackets, fieldsBrackets]

theorem accepts_files_quoted :
    accepts (quotedPlan.generate quotedSchemas).main = true ∧
    accepts (quotedPlan.generate quotedSchemas).inputs = true ∧
    acceptsWithin 5 (quotedPlan.generate quotedSchemas).main = false ∧
    acceptsWithin 10 (quotedPlan.generate quotedSchemas).inputs = false := by
  have hplural : Naming.KeepsIdentifier "aws_disk" := by
    intro provider rest hsplit _
    have hparts : Text.splitAt? '_' "aws_disk".toList = some ("aws".toList, "disk".toList) := rfl
    rw [hparts] at hsplit
    cases hsplit
    decide
  have huncrossed : (quotedDisk.block.attributes.all fun a => Hcl.Quoted.isUncrossed a.2.description.toList) = true := by
    decide
  have hread : ∀ a ∈ quotedDisk.block.attributes, Inputs.DescriptionRead a.2 :=
    fun a ha => Inputs.descriptionRead_of_isUncrossed (List.all_eq_true.mp huncrossed a ha)
  have hplurals : ∀ r ∈ quotedPlan.requests, Naming.KeepsIdentifier r.type := by
    intro r hr
    rcases List.mem_cons.mp hr with rfl | hr
    · exact hplural
    · rw [List.mem_singleton.mp hr]
      exact hplural
  have hreads : ∀ e ∈ quotedPlan.found quotedSchemas, e.1.mode = .single →
      ∀ a ∈ e.2.block.attributes, Inputs.DescriptionRead a.2 := by
    intro e he _
    rw [found_quoted] at he
    rcases List.mem_cons.mp he with rfl | he
    · exact hread
    · rw [List.mem_singleton.mp he]
      exact hread
  obtain ⟨hlevels, hmain, hinputs⟩ :=
    accepts_files quotedPlan quotedSchemas (by decide) (by decide) hplurals hreads
  simp only [brackets_quoted] at hlevels hmain hinputs
  refine ⟨hmain.mpr (by decide), hinputs.mpr (by decide), ?_, ?_⟩
  · rw [← Bool.not_eq_true, (hlevels 5).1]
    decide
  · rw [← Bool.not_eq_true, (hlevels 10).2]
    decide

end Plan

end ModuleScaffold
