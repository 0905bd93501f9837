import ModuleScaffold.Proofs.AttributeType
import ModuleScaffold.Proofs.FirstDocument
import ModuleScaffold.Proofs.Json.Edit
import ModuleScaffold.Proofs.Json.Reading

/-! # What a schema document is decoded to

Schemas are decoded from the core of a document: nothing else in it is looked at. Main statement: documents that differ only
in edits that change nothing are decoded to the same schemas. -/

namespace ModuleScaffold

/-! ## Members of a core -/

namespace Json

variable {ρ α : Type} {v : Vocabulary ρ} {words : List String} {name : ρ} {inner : Shape ρ} {key : String} {j : Json}

theorem member?_core (h : memberShape? key (v.members name) = some inner) :
    (core v words (.record name) j).member? key =
      ((j.member? key).map (core v words inner)).filter fun m => !isDefault words inner m := by
  cases j with
  | object js =>
    rw [core]
    exact find?_arranged_record rfl h
  | null | bool | number | string | array => rfl

/-- A member is the core of the member, unless that is the default. -/
theorem member?_core_cases (h : memberShape? key (v.members name) = some inner) :
    (core v words (.record name) j).member? key = (j.member? key).map (core v words inner) ∨
      ∃ m, j.member? key = some m ∧ isDefault words inner (core v words inner m) = true ∧
        (core v words (.record name) j).member? key = none := by
  rw [member?_core h]
  cases j.member? key with
  | none => exact .inl rfl
  | some m =>
    rw [Option.map_some]
    by_cases hkept : isDefault words inner (core v words inner m) = true
    · exact .inr ⟨m, rfl, hkept, Option.filter_some_neg (by simp [hkept])⟩
    · exact .inl (Option.filter_some_pos (by simpa using hkept))

/-- What is made of a member is made of the core, if nothing is made of what the core leaves out. -/
theorem of_member?_core (f : Option Json → α) (h : memberShape? key (v.members name) = some inner)
    (hcore : ∀ m, j.member? key = some m → f (some (core v words inner m)) = f (some m))
    (hdefault : ∀ m, isDefault words inner m = true → f (some m) = f none) :
    f ((core v words (.record name) j).member? key) = f (j.member? key) := by
  rcases member?_core_cases h with hkept | ⟨m, hm, hcoreDefault, habsent⟩
  · rw [hkept]
    cases hm : j.member? key with
    | none => rfl
    | some m => exact hcore m hm
  · rw [habsent, hm, ← hcore m hm, hdefault _ hcoreDefault]

theorem textAt_core (h : memberShape? key (v.members name) = some .text) :
    (core v words (.record name) j).textAt key = j.textAt key := by
  rw [textAt, textAt]
  rcases member?_core_cases h with hkept | ⟨m, hm, hdefault, habsent⟩
  · rw [hkept]
    rcases j.member? key with _ | _ | _ | _ | _ | _ | _ <;> rfl
  · rw [habsent, hm]
    cases m with
    | string s =>
      obtain rfl : s = "" := by simpa [core, isDefault] using hdefault
      rfl
    | null | bool | number | array | object => rfl

theorem flagAt_core (h : memberShape? key (v.members name) = some .flag) :
    (core v words (.record name) j).flagAt key = j.flagAt key := by
  rw [flagAt, flagAt]
  rcases member?_core_cases h with hkept | ⟨m, hm, hdefault, habsent⟩
  · rw [hkept]
    rcases j.member? key with _ | _ | _ | _ | _ | _ | _ <;> rfl
  · rw [habsent, hm]
    cases m with
    | bool b =>
      obtain rfl : b = false := by simpa [core, isDefault] using hdefault
      rfl
    | null | number | string | array | object => rfl

theorem countAt_core (h : memberShape? key (v.members name) = some .count) :
    (core v words (.record name) j).countAt key = j.countAt key := by
  rw [countAt, countAt]
  rcases member?_core_cases h with hkept | ⟨m, hm, hdefault, habsent⟩
  · rw [hkept]
    rcases j.member? key with _ | _ | _ | _ | _ | _ | _ <;> rfl
  · rw [habsent, hm]
    cases m with
    | number n =>
      obtain rfl : n = .whole 0 := by simpa [core, isDefault] using hdefault
      rfl
    | null | bool | string | array | object => rfl

/-- A table of what is made of the values of a member, where the same is made of the core of each value. -/
theorem ofList_membersAt_core (f : Json → α) (h : memberShape? key (v.members name) = some (.table inner))
    (hf : ∀ e ∈ j.membersAt key, f (core v words inner e.2) = f e.2) :
    Table.ofList (((core v words (.record name) j).membersAt key).map fun e => (e.1, f e.2)) =
      Table.ofList ((j.membersAt key).map fun e => (e.1, f e.2)) := by
  -- What is made of the core of a table is made of the table.
  have htable {js : List (String × Json)} (hf : ∀ e ∈ js, f (core v words inner e.2) = f e.2) :
      Table.ofList ((Table.ofList (js.map fun e => (e.1, core v words inner e.2))).map fun e => (e.1, f e.2)) =
        Table.ofList (js.map fun e => (e.1, f e.2)) := by
    rw [Table.ofList_map f, Table.ofList_ofList, ← Table.ofList_map f, List.map_map]
    exact congrArg Table.ofList (List.map_congr_left fun e he => congrArg (e.1, ·) (hf e he))
  have hcore (js : List (String × Json)) : core v words (.table inner) (.object js) =
      .object (Table.ofList (js.map fun e => (e.1, core v words inner e.2))) := by
    rw [core, coreEach_eq_map]
    rfl
  rw [membersAt] at hf
  rw [membersAt, membersAt]
  rcases member?_core_cases h with hkept | ⟨m, hm, hdefault, habsent⟩
  · rw [hkept]
    rcases hm : j.member? key with _ | _ | _ | _ | _ | _ | js <;> try rfl
    rw [hm] at hf
    simp only [Option.map_some, hcore]
    exact htable hf
  · rw [hm] at hf
    rw [habsent, hm]
    cases m with
    | object js =>
      have hnil : Table.ofList (js.map fun e => (e.1, core v words inner e.2)) = [] := by
        rw [hcore] at hdefault
        simpa [isDefault] using hdefault
      have hsame := htable hf
      rw [hnil] at hsame
      exact hsame
    | null | bool | number | string | array => rfl

theorem core_ne_null {shape : Shape ρ} (h : j ≠ .null) : core v words shape j ≠ .null := by
  intro hnull
  cases j with
  | null => exact h rfl
  | array es =>
    rw [core] at hnull
    split at hnull <;> cases hnull
  | object js =>
    rw [core] at hnull
    cases hnull
  | bool | number | string => cases hnull

/-- What is made of a member, unless it is absent or null. -/
def unlessNull (f : Json → α) : Option Json → Option α
  | none => none
  | some .null => none
  | some m => some (f m)

theorem unlessNull_of_ne (f : Json → α) (h : j ≠ .null) : unlessNull f (some j) = some (f j) := by
  cases j with
  | null => exact (h rfl).elim
  | bool | number | string | array | object => rfl

theorem unlessNull_core (f : Json → α) (h : memberShape? key (v.members name) = some (.optional inner))
    (hf : ∀ m, j.member? key = some m → f (core v words inner m) = f m) :
    unlessNull f ((core v words (.record name) j).member? key) = unlessNull f (j.member? key) := by
  refine of_member?_core (unlessNull f) h ?_ ?_
  · intro m hm
    rw [core_optional]
    by_cases hnull : m = .null
    · rw [hnull]
      rfl
    · rw [unlessNull_of_ne f hnull, unlessNull_of_ne f (core_ne_null hnull), hf m hm]
  · rintro (_ | _ | _ | _ | _ | _) hm <;> try cases hm
    rfl

end Json

/-! ## Types -/

namespace AttributeType

open Json

variable {ρ : Type} {v : Vocabulary ρ} {words : List String}

theorem fieldsOfJson_eq_map (members : List (String × Json)) :
    fieldsOfJson members = members.map fun e => (e.1, ofJson e.2) := by
  induction members with
  | nil => rfl
  | cons e rest ih =>
    obtain ⟨name, value⟩ := e
    rw [fieldsOfJson, ih, List.map_cons]

theorem core_pair (kind : String) (inner : Json) :
    core v words .any (.array [.string kind, inner]) = .array [.string kind, core v words .any inner] := rfl

theorem core_members (members : List (String × Json)) : core v words .any (.object members) =
    .object (Table.ofList (members.map fun e => (e.1, core v words .any e.2))) := by
  rw [core, coreEach_eq_map]
  rfl

theorem eq_string_of_core {j : Json} {s : String} (h : core v words .any j = .string s) : j = .string s := by
  cases j with
  | string => exact h
  | array | object => rw [core] at h; cases h
  | null | bool | number => cases h

theorem eq_object_of_core {j : Json} {members : List (String × Json)} (h : core v words .any j = .object members) :
    ∃ js, j = .object js := by
  cases j with
  | object js => exact ⟨js, rfl⟩
  | array => rw [core] at h; cases h
  | null | bool | number | string => cases h

theorem eq_pair_of_core {j inner : Json} {kind : String} (h : core v words .any j = .array [.string kind, inner]) :
    ∃ inner', j = .array [.string kind, inner'] := by
  cases j with
  | array es =>
    rw [core] at h
    have hes : es.map (core v words .any) = [.string kind, inner] := by simpa [Shape.plain, coreAll_eq_map] using h
    obtain ⟨first, rest, rfl, hfirst, hrest⟩ := List.map_eq_cons_iff.mp hes
    obtain ⟨inner', rest, rfl, -, hrest⟩ := List.map_eq_cons_iff.mp hrest
    obtain rfl := List.map_eq_nil_iff.mp hrest
    exact ⟨inner', by rw [eq_string_of_core hfirst]⟩
  | object => rw [core] at h; cases h
  | null | bool | number | string => cases h

theorem ofJson_eq_any {j : Json} (hword : ∀ word, j ≠ .string word) (hkind : ∀ kind inner, j ≠ .array [.string kind, inner]) :
    ofJson j = any := by
  rw [ofJson.eq_def]
  split
  · exact (hword _ rfl).elim
  · exact (hkind _ _ rfl).elim
  · rfl

theorem ofJson_object_eq_any {inner : Json} (h : ∀ members, inner ≠ .object members) :
    ofJson (.array [.string "object", inner]) = any := by
  cases inner with
  | object members => exact (h members rfl).elim
  | null | bool | number | string | array => rfl

theorem ofJson_kind_eq_any {kind : String} (h : kind ∉ ["list", "set", "map", "object"]) (inner : Json) :
    ofJson (.array [.string kind, inner]) = any := by
  simp only [List.mem_cons, List.not_mem_nil, or_false, not_or] at h
  obtain ⟨hlist, hset, hmap, hobject⟩ := h
  rw [ofJson.eq_def]
  simp only [if_neg hlist, if_neg hset, if_neg hmap, if_neg hobject]

/-- A type is decoded from the core of its encoding. -/
theorem ofJson_core (j : Json) : ofJson (core v words .any j) = ofJson j := by
  induction j using ofJson.induct _ (fun members => ∀ e ∈ members, ofJson (core v words .any e.2) = ofJson e.2) with
  | case1 word => rfl
  | case2 inner ih => rw [core_pair, ofJson_list, ofJson_list, ih]
  | case3 inner _ ih => rw [core_pair, ofJson_set, ofJson_set, ih]
  | case4 inner _ _ ih => rw [core_pair, ofJson_map, ofJson_map, ih]
  | case5 members _ _ _ ih =>
    have hfields : (members.map fun e => (e.1, core v words .any e.2)).map (fun e => (e.1, ofJson e.2)) =
        members.map fun e => (e.1, ofJson e.2) := by
      rw [List.map_map]
      exact List.map_congr_left fun e he => congrArg (e.1, ·) (ih e he)
    rw [core_pair, core_members, ofJson_object, ofJson_object, fieldsOfJson_eq_map, fieldsOfJson_eq_map,
      Table.ofList_map, Table.ofList_ofList, ← Table.ofList_map, hfields]
  | case6 inner hinner =>
    rw [core_pair, ofJson_object_eq_any hinner, ofJson_object_eq_any]
    intro members heq
    obtain ⟨js, rfl⟩ := eq_object_of_core heq
    exact hinner js rfl
  | case7 kind inner hl hs hm ho =>
    have hkind : kind ∉ ["list", "set", "map", "object"] := by simp [hl, hs, hm, ho]
    rw [core_pair, ofJson_kind_eq_any hkind, ofJson_kind_eq_any hkind]
  | case8 j hword hkind =>
    rw [ofJson_eq_any hword hkind, ofJson_eq_any]
    · exact fun word heq => hword word (eq_string_of_core heq)
    · intro kind inner heq
      obtain ⟨inner', rfl⟩ := eq_pair_of_core heq
      exact hkind kind inner' rfl
  | case9 e he => cases he
  | case10 name value rest ihv ih e he =>
    rcases List.mem_cons.mp he with rfl | he
    · exact ihv
    · exact ih e he

end AttributeType

/-! ## Attributes and blocks -/

open Json

section Records

/-- The words of a schema that name a mode. -/
def NestingMode.words : List String := ["single", "list", "set", "map", "group"]

theorem NestingMode.ofWord_eq_unknown {word : String} (h : word ∉ words) : ofWord word = unknown := by
  simp only [words, List.mem_cons, List.not_mem_nil, or_false, not_or] at h
  obtain ⟨hsingle, hlist, hset, hmap, hgroup⟩ := h
  rw [ofWord, if_neg hsingle, if_neg hlist, if_neg hset, if_neg hmap, if_neg hgroup]

/-- The core of a record of a schema document. -/
abbrev schemaCore (name : Schema.Record) : Json → Json := core Schema.vocabulary NestingMode.words (.record name)

theorem Attribute.typeOfJson?_eq (j : Json) : typeOfJson? j = unlessNull AttributeType.ofJson (j.member? "type") := by
  unfold typeOfJson?
  split
  · next h => rw [h]; rfl
  · next h => rw [h]; rfl
  · next value hnull h => rw [h, unlessNull_of_ne _ hnull]

theorem Attribute.ofJson_core (j : Json) : ofJson (schemaCore .argument j) = ofJson j := by
  have htype : unlessNull AttributeType.ofJson ((schemaCore .argument j).member? "type") =
      unlessNull AttributeType.ofJson (j.member? "type") :=
    unlessNull_core _ rfl fun m _ => AttributeType.ofJson_core m
  rw [ofJson, typeOfJson?_eq, htype, ← typeOfJson?_eq, textAt_core rfl, flagAt_core rfl, flagAt_core rfl, flagAt_core rfl, ofJson]

theorem Nesting.ofJson_core (j : Json) : ofJson (schemaCore .nested j) = ofJson j := by
  have hmode : NestingMode.ofWord ((schemaCore .nested j).textAt "nesting_mode") =
      NestingMode.ofWord (j.textAt "nesting_mode") := by
    rw [textAt, textAt]
    rcases member?_core_cases (rfl : memberShape? "nesting_mode" (Schema.vocabulary.members .nested) = some .word)
      with hkept | ⟨m, hm, hdefault, habsent⟩
    · rw [hkept]
      rcases j.member? "nesting_mode" with _ | _ | _ | _ | _ | _ | _ <;> rfl
    · rw [habsent, hm]
      cases m with
      | string word =>
        have hword : word ∉ NestingMode.words := by simpa [core, isDefault] using hdefault
        exact (NestingMode.ofWord_eq_unknown hword).symm
      | null | bool | number | array | object => rfl
  rw [ofJson, hmode, countAt_core rfl, countAt_core rfl, ofJson]

theorem bodyOfJson_eq (j : Json) : bodyOfJson j = unlessNull Block.ofJson (j.member? "block") := by
  cases j with
  | object members =>
    rw [bodyOfJson, member?]
    induction members with
    | nil => rfl
    | cons e rest ih =>
      obtain ⟨name, value⟩ := e
      unfold bodyAt
      rw [Table.find?]
      split
      · cases value <;> rfl
      · exact ih
  | null | bool | number | string | array => rfl

theorem nestedEntries_eq_map (entries : List (String × Json)) :
    nestedEntries entries = entries.map fun e => (e.1, Nesting.ofJson e.2, bodyOfJson e.2) := by
  induction entries with
  | nil => rfl
  | cons e rest ih =>
    obtain ⟨name, value⟩ := e
    rw [nestedEntries, ih, List.map_cons]

theorem nestedAt_eq (members : List (String × Json)) :
    nestedAt members = nestedEntries ((Json.object members).membersAt "block_types") := by
  induction members with
  | nil => rfl
  | cons e rest ih =>
    obtain ⟨name, value⟩ := e
    rw [nestedAt, membersAt, member?, Table.find?]
    split
    · cases value <;> rfl
    · exact ih

theorem Block.ofJson_eq (j : Json) : Block.ofJson j =
    .mk (Table.ofList ((j.membersAt "attributes").map fun e => (e.1, Attribute.ofJson e.2)))
      (Table.ofList ((j.membersAt "block_types").map fun e => (e.1, Nesting.ofJson e.2, bodyOfJson e.2)))
      (j.textAt "description") := by
  cases j with
  | object members => rw [ofJson, nestedAt_eq, nestedEntries_eq_map]; rfl
  | null | bool | number | string | array => rfl

theorem sizeOf_of_member? {key : String} {j m : Json} (h : j.member? key = some m) : sizeOf m < sizeOf j := by
  cases j with
  | object members =>
    have hsize := List.sizeOf_lt_of_mem (Table.mem_of_find? h)
    simp only [Prod.mk.sizeOf_spec, Json.object.sizeOf_spec] at hsize ⊢
    omega
  | null | bool | number | string | array => cases h

theorem sizeOf_of_mem_membersAt {key : String} {j : Json} {e : String × Json} (h : e ∈ j.membersAt key) :
    sizeOf e.2 < sizeOf j := by
  unfold membersAt at h
  split at h
  · next members hm =>
    have hmember := sizeOf_of_member? hm
    have hsize := List.sizeOf_lt_of_mem h
    obtain ⟨name, value⟩ := e
    simp only [Prod.mk.sizeOf_spec, Json.object.sizeOf_spec] at hsize hmember ⊢
    omega
  · cases h

/-- A block is decoded from the core of its encoding, and so are the blocks nested in it. -/
theorem Block.ofJson_core (j : Json) : ofJson (schemaCore .block j) = ofJson j := by
  have hattributes :
      Table.ofList (((schemaCore .block j).membersAt "attributes").map fun e => (e.1, Attribute.ofJson e.2)) =
        Table.ofList ((j.membersAt "attributes").map fun e => (e.1, Attribute.ofJson e.2)) :=
    ofList_membersAt_core _ rfl fun e _ => Attribute.ofJson_core e.2
  have hnested : ∀ e ∈ j.membersAt "block_types", (Nesting.ofJson (schemaCore .nested e.2),
      bodyOfJson (schemaCore .nested e.2)) = (Nesting.ofJson e.2, bodyOfJson e.2) := by
    intro e he
    have hbody : unlessNull Block.ofJson ((schemaCore .nested e.2).member? "block") =
        unlessNull Block.ofJson (e.2.member? "block") :=
      unlessNull_core _ rfl fun m hm => Block.ofJson_core m
    rw [Nesting.ofJson_core, bodyOfJson_eq, bodyOfJson_eq, hbody]
  have hblocks : Table.ofList (((schemaCore .block j).membersAt "block_types").map fun e =>
      (e.1, Nesting.ofJson e.2, bodyOfJson e.2)) =
        Table.ofList ((j.membersAt "block_types").map fun e => (e.1, Nesting.ofJson e.2, bodyOfJson e.2)) :=
    ofList_membersAt_core (fun value => (Nesting.ofJson value, bodyOfJson value)) rfl hnested
  rw [ofJson_eq, hattributes, hblocks, textAt_core rfl, ← ofJson_eq]
termination_by sizeOf j
decreasing_by
  exact (sizeOf_of_member? hm).trans (sizeOf_of_mem_membersAt he)

theorem ResourceSchema.ofJson_core (j : Json) : ofJson (schemaCore .resource j) = ofJson j := by
  have hblock : (((schemaCore .resource j).member? "block").map Block.ofJson).getD Block.empty =
      ((j.member? "block").map Block.ofJson).getD Block.empty := by
    refine of_member?_core (fun m => (m.map Block.ofJson).getD Block.empty) rfl ?_ ?_
    · exact fun m _ => Block.ofJson_core m
    · rintro (_ | _ | _ | _ | _ | js) hm <;> try cases hm
      obtain rfl : js = [] := by simpa [isDefault] using hm
      rfl
  rw [ofJson, countAt_core rfl, hblock, ofJson]

/-! ## Documents -/

namespace SchemaSet

theorem resourcesOfJson_core (j : Json) : resourcesOfJson (schemaCore .provider j) = resourcesOfJson j :=
  ofList_membersAt_core ResourceSchema.ofJson rfl fun e _ => ResourceSchema.ofJson_core e.2

theorem ofJson_core (j : Json) : ofJson (schemaCore .schemas j) = ofJson j := by
  have hproviders :
      Table.ofList (((schemaCore .schemas j).membersAt "provider_schemas").map fun e => (e.1, resourcesOfJson e.2)) =
        Table.ofList ((j.membersAt "provider_schemas").map fun e => (e.1, resourcesOfJson e.2)) :=
    ofList_membersAt_core _ rfl fun e _ => resourcesOfJson_core e.2
  rw [ofJson, textAt_core rfl, hproviders, ofJson]

/-- Schemas are decoded from what a tree means. -/
theorem read_eq_ok_iff {d : Tree} {input : String} {schemas : SchemaSet} (h : d.IsWritten input) :
    read input = .ok schemas ↔ d.Fits Schema.vocabulary (.record .schemas) maxDepth ∧
      (d.meaning? Schema.vocabulary NestingMode.words (.record .schemas)).map ofJson = some schemas := by
  have hvalue (j : Json) : Json.read Schema.vocabulary (.record .schemas) input = .ok j ↔
      d.Fits Schema.vocabulary (.record .schemas) maxDepth ∧ d.read? Schema.vocabulary (.record .schemas) = some j :=
    Tree.read_eq_ok_iff Schema.isFlat_vocabulary rfl h
  rw [read, map_eq_ok_iff]
  simp only [hvalue, Tree.meaning?, Option.map_map, Option.map_eq_some_iff, Function.comp_apply, ofJson_core]
  constructor
  · rintro ⟨j, ⟨hfits, hread⟩, hj⟩
    exact ⟨hfits, j, hread, hj⟩
  · rintro ⟨hfits, j, hread, hj⟩
    exact ⟨j, ⟨hfits, hread⟩, hj⟩

theorem isDistinct_vocabulary : Schema.vocabulary.IsDistinct := by
  intro name
  cases name <;> decide

/-- Members in another order, members that a record does not have and defaults that are spelled out change nothing. -/
theorem decoding_ignores_edits {d d' : Tree} {input input' : String} {schemas : SchemaSet}
    (hedits : Relation.EqvGen (Tree.Edit Schema.vocabulary NestingMode.words (.record .schemas)) d d')
    (h : d.IsWritten input) (h' : d'.IsWritten input') (hfits : d'.Fits Schema.vocabulary (.record .schemas) maxDepth)
    (hread : read input = .ok schemas) : read input' = .ok schemas := by
  rw [read_eq_ok_iff h, Tree.meaning?_eq_of_edits isDistinct_vocabulary hedits] at hread
  exact (read_eq_ok_iff h').mpr ⟨hfits, hread.2⟩

/-! ### A document in other words -/

/-- The members of a document with one resource. -/
def sample (provider : Tree) : List (Literal × Tree) :=
  [(.ofPlain "format_version" (by decide), .string (.ofPlain "1.0" (by decide))),
    (.ofPlain "provider_schemas" (by decide), .object [(.ofPlain "p" (by decide), provider)])]

/-- The members of its provider. -/
def sampleProvider (resource : Tree) : List (Literal × Tree) :=
  [(.ofPlain "resource_schemas" (by decide), .object [(.ofPlain "r" (by decide), resource)])]

theorem sample_edit {t u : Tree} (h : Tree.Edit Schema.vocabulary NestingMode.words (.record .provider) t u) :
    Tree.Edit Schema.vocabulary NestingMode.words (.record .schemas) (.object (sample t)) (.object (sample u)) :=
  @Tree.Edit.member _ _ _ _ _ [_] [] _ _ _ _ (Literal.value?_ofPlain _ _) rfl
    (@Tree.Edit.member _ _ _ _ _ [] [] _ _ _ _ (Literal.value?_ofPlain _ _) rfl h)

theorem sampleProvider_edit {t u : Tree} (h : Tree.Edit Schema.vocabulary NestingMode.words (.record .resource) t u) :
    Tree.Edit Schema.vocabulary NestingMode.words (.record .provider) (.object (sampleProvider t))
      (.object (sampleProvider u)) :=
  @Tree.Edit.member _ _ _ _ _ [] [] _ _ _ _ (Literal.value?_ofPlain _ _) rfl
    (@Tree.Edit.member _ _ _ _ _ [] [] _ _ _ _ (Literal.value?_ofPlain _ _) rfl h)

/-- A resource is the same with a block that is spelled out, a member that no provider has and its members turned round. -/
theorem decoding_ignores_edits_sample : ∃ schemas,
    read "\x7b\"format_version\":\"1.0\",\"provider_schemas\":\x7b\"p\":\x7b\"resource_schemas\":\x7b\"r\":\x7b\x7d\x7d\x7d\x7d\x7d"
      = .ok schemas ∧
    read ("\x7b\"provider_schemas\":\x7b\"p\":\x7b\"resource_schemas\":\x7b\"r\":\x7b\"block\":\x7b\x7d\x7d\x7d,\"provider\":null\x7d\x7d,"
      ++ "\"format_version\":\"1.0\"\x7d") = .ok schemas ∧ schemas.resourceCount = 1 := by
  have hspelled : Tree.Edit Schema.vocabulary NestingMode.words (.record .resource) (.object [])
      (.object [(.ofPlain "block" (by decide), .object [])]) :=
    @Tree.Edit.spelled _ _ _ _ _ _ [] [] _ _ _ rfl (Literal.value?_ofPlain _ _) rfl (by simp) .record
  have hunknown (t : Tree) : Tree.Edit Schema.vocabulary NestingMode.words (.record .provider) (.object (sampleProvider t))
      (.object (sampleProvider t ++ [(.ofPlain "provider" (by decide), .null)])) := by
    have h := @Tree.Edit.unknown _ Schema.vocabulary NestingMode.words (.record .provider) _ (sampleProvider t) []
      (.ofPlain "provider" (by decide)) _ .null rfl (Literal.value?_ofPlain _ _) rfl
    rwa [List.append_nil] at h
  let resource : Tree := .object [(.ofPlain "block" (by decide), .object [])]
  let members := sample (.object (sampleProvider resource ++ [(.ofPlain "provider" (by decide), .null)]))
  have hpermuted : Tree.Edit Schema.vocabulary NestingMode.words (.record .schemas) (.object members)
      (.object members.reverse) :=
    .permute (by simp [members, sample, Literal.value?_ofPlain]) (List.reverse_perm _).symm
  have hedits : Relation.EqvGen (Tree.Edit Schema.vocabulary NestingMode.words (.record .schemas))
      (.object (sample (.object (sampleProvider (.object []))))) (.object members.reverse) :=
    .trans _ _ _ (.rel _ _ (sample_edit (sampleProvider_edit hspelled)))
      (.trans _ _ _ (.rel _ _ (sample_edit (hunknown resource))) (.rel _ _ hpermuted))
  have hread : (read (String.ofList (Tree.object (sample (.object (sampleProvider (.object []))))).compact)).toOption.map
      (·.resourceCount) = some 1 := by decide +kernel
  obtain ⟨schemas, hschemas, hcount⟩ := Option.map_eq_some_iff.mp hread
  rw [toOption_eq_some_iff] at hschemas
  have hagain := decoding_ignores_edits hedits (Tree.isWritten_compact _) (Tree.isWritten_compact _) (by decide +kernel) hschemas
  refine ⟨schemas, ?_, ?_, hcount⟩
  · rw [← hschemas]
    exact congrArg read (by decide +kernel)
  · rw [← hagain]
    exact congrArg read (by decide +kernel)

end SchemaSet

end Records

end ModuleScaffold
