import ModuleScaffold.Arguments
import ModuleScaffold.Proofs.Agreement
import ModuleScaffold.Proofs.Reading.Module
import Mathlib.Data.List.Perm.Basic
import Mathlib.Data.List.Nodup

/-! # Names that clash

A file must not define a name twice. Arguments are refused when they ask for a second single resource, and for no
other clash. Main statement: which requests make a module define a name twice. -/

namespace ModuleScaffold

/-! ## Accepted requests -/

namespace Arguments

theorem requestsFrom_cons {providers : Table Provider} {taken : Bool} {input : String} {rest : List String}
    {requests : List Request} (h : requestsFrom providers taken (input :: rest) = .ok requests) :
    ∃ r more, requests = r :: more ∧ (taken = true → r.mode ≠ .single) ∧
      requestsFrom providers (taken || r.mode == .single) rest = .ok more := by
  rw [requestsFrom] at h
  split at h
  · cases h
  · next r hr =>
    split at h
    · next more hmore =>
      cases h
      refine ⟨r, more, rfl, ?_, hmore⟩
      intro htaken hsingle
      unfold Request.parse at hr
      grind
    · cases h

/-- The requests for a single resource. -/
def singles (requests : List Request) : List Request := requests.filter (·.mode = .single)

/-- Accepted arguments ask for one single resource at most. -/
theorem length_singles_le {providers : Table Provider} {inputs : List String} {taken : Bool}
    {requests : List Request} (h : requestsFrom providers taken inputs = .ok requests) :
    (singles requests).length + taken.toNat ≤ 1 := by
  induction inputs generalizing taken requests with
  | nil =>
    cases h
    cases taken <;> decide
  | cons input rest ih =>
    obtain ⟨r, more, rfl, htaken, hmore⟩ := requestsFrom_cons h
    have hrest := ih hmore
    unfold singles at hrest ⊢
    by_cases hr : r.mode = .single
    · have hfree : taken = false := by
        cases taken with
        | false => rfl
        | true => exact absurd hr (htaken rfl)
      simp [hr, hfree] at hrest ⊢
      exact hrest
    · have hmode : (r.mode == .single) = false := by simpa using hr
      rw [hmode, Bool.or_false] at hrest
      simpa [hr] using hrest

end Arguments

/-! ## Names of declarations -/

/-- No name stands twice among the attributes and nested blocks of a block. -/
def Block.NamesApart (b : Block) : Prop := (b.attributes.map (·.1) ++ b.nested.map (·.1)).Nodup

instance : DecidablePred Block.NamesApart := fun b => by unfold Block.NamesApart; exact inferInstance

/-- No name stands twice in the block of a resource. -/
def SchemaSet.NamesApart (s : SchemaSet) : Prop :=
  ∀ provider ∈ s.providers, ∀ resource ∈ provider.2, resource.2.block.NamesApart

instance : DecidablePred SchemaSet.NamesApart := fun s => by unfold SchemaSet.NamesApart; exact inferInstance

theorem names_nestedOutline_sublist (nested : List (String × Nesting × Option Block)) :
    ((nestedOutline nested).map Outline.name).Sublist (nested.map (·.1)) := by
  induction nested with
  | nil => simp [nestedOutline]
  | cons e rest ih =>
    obtain ⟨name, nesting, _ | b⟩ := e
    · rw [nestedOutline]
      exact ih.cons name
    · rw [nestedOutline]
      split
      · exact ih.cons_cons name
      · exact ih.cons name

theorem nodup_names_outline {b : Block} (h : b.NamesApart) : (b.outline.map Outline.name).Nodup := by
  cases b with
  | mk attributes nested description =>
    have hperm := ((attributes.map fun e => Outline.argument e.1) ++ nestedOutline nested).perm_insertionSort
      Outline.Precedes
    rw [Block.outline, (hperm.map Outline.name).nodup_iff, List.map_append, List.map_map]
    exact List.Nodup.sublist ((List.Sublist.refl _).append (names_nestedOutline_sublist nested)) h

theorem Mirrors.names {os : List Outline} {ds : List Inputs.Declaration} (h : Mirrors os ds) :
    ds.map Inputs.Declaration.name = os.map Outline.name := by
  induction h with
  | nil => rfl
  | argument _ ih => rw [List.map_cons, List.map_cons, ih]; rfl
  | block _ _ _ ih => rw [List.map_cons, List.map_cons, ih]; rfl

/-- The names that a request for a resource with this block declares. -/
def Request.declaredNames (r : Request) (b : Block) : List String :=
  match r.mode with
  | .single => b.outline.map Outline.name
  | .multiple => [Naming.variableName r.type]

theorem names_ofRequest (comments : Bool) (r : Request) (schema : ResourceSchema) :
    (Inputs.ofRequest comments r schema).map Inputs.Declaration.name = r.declaredNames schema.block := by
  have hmirrors := Inputs.mirrors_declarations comments schema.block r.mode
  unfold Inputs.ofRequest Request.declaredNames
  cases hmode : r.mode with
  | single =>
    rw [hmode] at hmirrors
    exact hmirrors.names
  | multiple => rfl

/-! ## Names of a module -/

namespace Plan

variable {p : Plan} {s : SchemaSet}

theorem namesApart_of_mem_found (hn : s.NamesApart) {e : Request × ResourceSchema} (he : e ∈ p.found s) :
    e.2.block.NamesApart := by
  have hschema := schemaOf_eq_ok_iff.mp (mem_found.mp he).2
  obtain ⟨resources, hprovider, hresource⟩ := Option.bind_eq_some_iff.mp hschema
  exact hn _ (Table.mem_of_find? hprovider) _ (Table.mem_of_find? hresource)

/-- The names of the variables that hold collections. -/
def collectionNames (p : Plan) (s : SchemaSet) : List String :=
  ((p.found s).filter (·.1.mode = .multiple)).map fun e => Naming.variableName e.1.type

/-- The names of the variables for the entries of a single resource. -/
def entryNames (p : Plan) (s : SchemaSet) : List String :=
  ((p.found s).filter (·.1.mode = .single)).flatMap fun e => e.2.block.outline.map Outline.name

theorem perm_declaredNames :
    ((p.found s).flatMap fun e => e.1.declaredNames e.2.block).Perm (p.entryNames s ++ p.collectionNames s) := by
  unfold entryNames collectionNames
  induction p.found s with
  | nil => exact .refl _
  | cons e rest ih =>
    rw [List.flatMap_cons]
    cases hmode : e.1.mode with
    | single =>
      simpa [Request.declaredNames, hmode] using ih.append_left _
    | multiple =>
      simpa [Request.declaredNames, hmode] using (ih.cons _).trans List.perm_middle.symm

theorem length_found_single_le {providers : Table Provider} {inputs : List String}
    (hr : Arguments.requests providers inputs = .ok p.requests) :
    ((p.found s).filter (·.1.mode = .single)).length ≤ 1 := by
  have hsublist : ((p.found s).map (·.1)).Sublist p.requests := by
    unfold found
    induction p.requests with
    | nil => exact .refl _
    | cons r rest ih =>
      rw [List.filterMap_cons]
      cases s.resource? (p.addressOf r) r.type with
      | none => exact ih.cons r
      | some schema => exact ih.cons_cons r
  have hsingles := Arguments.length_singles_le hr
  calc ((p.found s).filter (·.1.mode = .single)).length
      = (((p.found s).map (·.1)).filter (·.mode = .single)).length := by rw [List.filter_map, List.length_map]; rfl
    _ ≤ (Arguments.singles p.requests).length := (hsublist.filter _).length_le
    _ ≤ 1 := by omega

theorem nodup_entryNames {providers : Table Provider} {inputs : List String}
    (hr : Arguments.requests providers inputs = .ok p.requests) (hn : s.NamesApart) : (p.entryNames s).Nodup := by
  have hlength := length_found_single_le (s := s) hr
  have hapart : ∀ e ∈ (p.found s).filter (·.1.mode = .single), e.2.block.NamesApart :=
    fun e he => namesApart_of_mem_found hn (List.mem_filter.mp he).1
  unfold entryNames
  generalize (p.found s).filter (·.1.mode = .single) = singles at hlength hapart
  match singles with
  | [] => exact List.nodup_nil
  | [e] =>
    rw [List.flatMap_cons, List.flatMap_nil, List.append_nil]
    exact nodup_names_outline (hapart e List.mem_cons_self)
  | _ :: _ :: _ => simp at hlength

/-- The module of accepted requests defines no resource twice exactly when no type is found twice, and no variable
twice exactly when the variables of its collections have names of their own, which are not names of entries of the
single resource either. -/
theorem nodup_names_iff (p : Plan) (s : SchemaSet) (providers : Table Provider) (inputs : List String)
    (hr : Arguments.requests providers inputs = .ok p.requests) (hs : s.isNamed = true) (hn : s.NamesApart) :
    ∃ resources ds,
      Body.Resource.readAll (p.generate s).main = some resources ∧
      Inputs.readAll (p.generate s).inputs = some ds ∧
      resources.map (fun r => (r.type, r.label)) = (p.found s).map (fun e => (e.1.type, "this")) ∧
      ds.map Inputs.Declaration.name = (p.found s).flatMap (fun e => e.1.declaredNames e.2.block) ∧
      ((resources.map fun r => (r.type, r.label)).Nodup ↔ ((p.found s).map (·.1.type)).Nodup) ∧
      ((ds.map Inputs.Declaration.name).Nodup ↔
        (p.collectionNames s).Nodup ∧ ∀ name ∈ p.collectionNames s, name ∉ p.entryNames s) := by
  have hnamed := findsNamed_of_isNamed (p := p) hs
  have hresources : ((p.found s).map fun e => Body.Resource.ofRequest e.1 e.2).map (fun r => (r.type, r.label))
      = (p.found s).map fun e => (e.1.type, "this") := by
    rw [List.map_map]
    rfl
  have hnames : ((p.found s).flatMap fun e => Inputs.ofRequest p.comments e.1 e.2).map Inputs.Declaration.name
      = (p.found s).flatMap fun e => e.1.declaredNames e.2.block := by
    rw [List.map_flatMap]
    simp only [names_ofRequest]
  refine ⟨_, _, read_main hnamed, read_inputs hnamed, hresources, hnames, ?_, ?_⟩
  · have hlabelled : (p.found s).map (fun e => (e.1.type, "this"))
        = ((p.found s).map (·.1.type)).map fun type => (type, "this") := by rw [List.map_map]; rfl
    rw [hresources, hlabelled]
    exact List.nodup_map_iff fun a b h => (Prod.mk.inj h).1
  · rw [hnames, perm_declaredNames.nodup_iff, List.nodup_append]
    have hentries := nodup_entryNames hr hn
    constructor
    · rintro ⟨-, hcollections, hdisjoint⟩
      exact ⟨hcollections, fun name hc he => hdisjoint name he name hc rfl⟩
    · rintro ⟨hcollections, hdisjoint⟩
      refine ⟨hentries, hcollections, ?_⟩
      rintro name he _ hc rfl
      exact hdisjoint name hc he

/-- Two providers, each with a resource of the same plural. -/
def instanceProviders : Table Provider :=
  [("hashicorp/aws", ⟨"hashicorp", "aws", ">= 0"⟩), ("hashicorp/google", ⟨"hashicorp", "google", ">= 0"⟩)]

def instanceSchemas : SchemaSet :=
  ⟨"1.0", [("host/hashicorp/aws", [("aws_instance", ⟨1, .mk [("ami", ⟨some .string, "", true, false, false⟩)] [] ""⟩)]),
    ("host/hashicorp/google",
      [("google_instance", ⟨0, .mk [("zone", ⟨some .string, "", true, false, false⟩)] [] ""⟩)])]⟩

def instancePlan (requests : List Request) : Plan := ⟨requests, "host", false⟩

def awsInstance : Request := ⟨"aws_instance", .multiple, ⟨"hashicorp", "aws", ">= 0"⟩⟩

def googleInstance (mode : Mode) : Request := ⟨"google_instance", mode, ⟨"hashicorp", "google", ">= 0"⟩⟩

theorem nodup_names_iff_instances :
    ∃ resources ds,
      Body.Resource.readAll ((instancePlan [awsInstance, googleInstance .single]).generate instanceSchemas).main
        = some resources ∧
      Inputs.readAll ((instancePlan [awsInstance, googleInstance .single]).generate instanceSchemas).inputs
        = some ds ∧
      (resources.map fun r => (r.type, r.label)).Nodup ∧ ds.map Inputs.Declaration.name = ["instances", "zone"] ∧
      (ds.map Inputs.Declaration.name).Nodup := by
  obtain ⟨resources, ds, hmain, hinputs, -, hnames, hpairs, hnodup⟩ :=
    nodup_names_iff (instancePlan [awsInstance, googleInstance .single]) instanceSchemas instanceProviders
      ["aws_instance", "google_instance:single"] rfl (by decide) (by decide)
  exact ⟨resources, ds, hmain, hinputs, hpairs.mpr (by decide), hnames, hnodup.mpr (by decide)⟩

/-- Accepted arguments do not keep the names of a module apart: two types may have one plural, and a type may be
asked for twice. -/
theorem names_may_clash :
    (¬ ∀ (arguments inputs : List String) (providers : Table Provider) (p : Plan) (s : SchemaSet)
        (ds : List Inputs.Declaration),
      Arguments.providers arguments = .ok providers → Arguments.requests providers inputs = .ok p.requests →
      s.isNamed = true → s.NamesApart → Inputs.readAll (p.generate s).inputs = some ds →
      (ds.map Inputs.Declaration.name).Nodup) ∧
    (¬ ∀ (arguments inputs : List String) (providers : Table Provider) (p : Plan) (s : SchemaSet)
        (resources : List Body.Resource),
      Arguments.providers arguments = .ok providers → Arguments.requests providers inputs = .ok p.requests →
      s.isNamed = true → s.NamesApart → Body.Resource.readAll (p.generate s).main = some resources →
      (resources.map fun r => (r.type, r.label)).Nodup) := by
  have hproviders : Arguments.providers ["hashicorp/aws", "hashicorp/google"] = .ok instanceProviders := rfl
  have hnamed : instanceSchemas.isNamed = true := by decide
  have hapart : instanceSchemas.NamesApart := by decide
  constructor
  · intro h
    have hinputs := read_inputs (p := instancePlan [awsInstance, googleInstance .multiple])
      (findsNamed_of_isNamed hnamed)
    have hnodup := h _ ["aws_instance", "google_instance"] _ _ _ _ hproviders rfl hnamed hapart hinputs
    rw [List.map_flatMap] at hnodup
    simp only [names_ofRequest] at hnodup
    exact absurd hnodup (by decide)
  · intro h
    have hmain := read_main (p := instancePlan [awsInstance, awsInstance]) (findsNamed_of_isNamed hnamed)
    have hnodup := h _ ["aws_instance", "aws_instance"] _ _ _ _ hproviders rfl hnamed hapart hmain
    rw [List.map_map] at hnodup
    exact absurd hnodup (by decide)

end Plan

end ModuleScaffold
