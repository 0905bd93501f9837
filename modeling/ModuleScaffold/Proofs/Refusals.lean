import ModuleScaffold.Diagnostics
import ModuleScaffold.Proofs.Names
import ModuleScaffold.Proofs.Table

/-! # Refusals

Which names a list of refusals takes away from which type of resource. Main statement: an attribute of a resource
goes exactly when some refusal addresses its type and names it. -/

namespace ModuleScaffold

namespace Refusals

def Mentions (r : Refusals) (address name : String) : Prop := ∃ names, (address, names) ∈ r ∧ name ∈ names

theorem not_mentions_nil (address name : String) : ¬ Mentions [] address name := by
  rintro ⟨names, h, -⟩
  cases h

theorem mentions_add (r : Refusals) (address name address' name' : String) :
    Mentions (add r address name) address' name'
      ↔ Mentions r address' name' ∨ (address' = address ∧ name' = name) := by
  unfold add Table.update
  constructor
  · rintro ⟨names, hm, hn⟩
    rcases Table.mem_of_mem_insert hm with he | hm
    · obtain ⟨rfl, rfl⟩ := Prod.mk.inj he
      rcases List.mem_append.mp hn with hn | hn
      · cases hfind : Table.find? address' r with
        | none =>
          rw [hfind] at hn
          cases hn
        | some before =>
          rw [hfind] at hn
          exact Or.inl ⟨before, Table.mem_of_find? hfind, hn⟩
      · exact Or.inr ⟨rfl, List.mem_singleton.mp hn⟩
    · exact Or.inl ⟨names, hm, hn⟩
  · rintro (⟨names, hm, hn⟩ | ⟨rfl, rfl⟩)
    · rcases Table.mem_insert_of_mem ((Table.find? address r).getD [] ++ [name]) hm with hm | ⟨haddress, hfind⟩
      · exact ⟨names, hm, hn⟩
      · subst haddress
        refine ⟨_, Table.mem_insert_self _ _ r, ?_⟩
        rw [hfind]
        exact List.mem_append_left _ hn
    · exact ⟨_, Table.mem_insert_self _ _ r, List.mem_append_right _ (List.mem_singleton.mpr rfl)⟩

theorem mentions_foldl (pairs : List (String × String)) (r : Refusals) (address name : String) :
    Mentions (pairs.foldl (fun r (address, name) => add r address name) r) address name
      ↔ Mentions r address name ∨ (address, name) ∈ pairs := by
  induction pairs generalizing r with
  | nil => simp
  | cons pair rest ih =>
    rw [List.foldl_cons, ih, mentions_add, List.mem_cons, or_assoc, Prod.mk.injEq]

theorem mentions_ofDiagnostics (ds : List Diagnostic) (address name : String) :
    Mentions (ofDiagnostics ds) address name ↔ ∃ d ∈ ds, d.refusal? = some (address, name) := by
  rw [ofDiagnostics, mentions_foldl, List.mem_filterMap]
  simp [not_mentions_nil]

end Refusals

/-! ## What is taken away -/

namespace SchemaSet

theorem mem_distinct (names : List String) (name : String) : name ∈ distinct names ↔ name ∈ names := by
  have hfold : ∀ kept : List String,
      name ∈ names.foldl (fun kept name => if name ∈ kept then kept else kept ++ [name]) kept
        ↔ name ∈ kept ∨ name ∈ names := by
    induction names with
    | nil => simp
    | cons n rest ih =>
      intro kept
      rw [List.foldl_cons, ih, List.mem_cons]
      split
      · next hn =>
        constructor
        · rintro (h | h)
          · exact Or.inl h
          · exact Or.inr (Or.inr h)
        · rintro (h | rfl | h)
          · exact Or.inl h
          · exact Or.inl hn
          · exact Or.inr h
      · rw [List.mem_append, List.mem_singleton, or_assoc]
  rw [distinct, hfold]
  simp

/-- A name is refused for a type when it is refused at an address of that type. -/
theorem mem_refusedFor (r : Refusals) (type name : String) :
    name ∈ refusedFor r type ↔ ∃ address, addresses address type = true ∧ r.Mentions address name := by
  rw [refusedFor, mem_distinct, List.mem_flatMap]
  constructor
  · rintro ⟨⟨address, names⟩, hm, hn⟩
    simp only at hn
    split at hn
    · next ha => exact ⟨address, ha, names, hm, hn⟩
    · cases hn
  · rintro ⟨address, ha, names, hm, hn⟩
    refine ⟨(address, names), hm, ?_⟩
    simp only [ha, if_true]
    exact hn

theorem addresses_labelled (type other label : String) (ht : '.' ∉ type.toList) (ho : '.' ∉ other.toList) :
    addresses (type ++ "." ++ label) other = true ↔ other = type := by
  have htext : (type ++ "." ++ label).toList = type.toList ++ '.' :: label.toList := by simp
  have hcut := Text.splitAt?_append '.' type.toList label.toList ht
  unfold addresses
  rw [htext]
  constructor
  · intro h
    split at h
    · next hafter =>
      have htext := Text.after?_eq_some_iff.mp hafter
      rw [List.append_nil] at htext
      exact absurd (by rw [← htext]; simp) ho
    · next c rest hafter =>
      have htext := Text.after?_eq_some_iff.mp hafter
      rw [beq_iff_eq] at h
      subst h
      rw [htext, Text.splitAt?_append '.' other.toList rest ho] at hcut
      have hsame : other.toList = type.toList := congrArg Prod.fst (Option.some.inj hcut)
      exact String.toList_inj.mp hsame
    · cases h
  · rintro rfl
    rw [Text.after?_append]
    rfl

theorem mapBlocks_congr {f g : String → Block → Block} {s : SchemaSet}
    (h : ∀ key resources, (key, resources) ∈ s.providers →
      ∀ type r, (type, r) ∈ resources → f type r.block = g type r.block) : s.mapBlocks f = s.mapBlocks g := by
  unfold mapBlocks
  congr 1
  apply List.map_congr_left
  rintro ⟨key, resources⟩ hk
  have hresources : ∀ e ∈ resources, f e.1 e.2.block = g e.1 e.2.block :=
    fun e he => h key resources hk e.1 e.2 he
  simp only [Prod.mk.injEq, true_and]
  apply List.map_congr_left
  rintro ⟨type, r⟩ hr
  simp only [hresources (type, r) hr]

/-- The schema set without some attributes of some types of resources, wherever the types occur. -/
def without (pairs : List (String × String)) (s : SchemaSet) : SchemaSet :=
  s.mapBlocks fun type b => b.withAttributes (b.attributes.filter fun e => (type, e.1) ∉ pairs)

theorem dropRefused_eq_without {s : SchemaSet} (hs : s.isNamed = true) {r : Refusals}
    {pairs : List (String × String)}
    (h : ∀ type name, Text.isIdentifier type.toList = true → (name ∈ refusedFor r type ↔ (type, name) ∈ pairs)) :
    s.dropRefused r = s.without pairs := by
  apply mapBlocks_congr
  intro key resources hk type schema hr
  have htype := (isNamed_resource hs hk hr).1
  apply congrArg fun attributes => schema.block.withAttributes attributes
  apply List.filter_congr
  rintro ⟨name, a⟩ -
  simp [h type name htype]

end SchemaSet
end ModuleScaffold
