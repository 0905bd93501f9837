import ModuleScaffold.Proofs.Refusals
import Mathlib.Data.List.Basic

/-! # Refusals by address

The names that diagnostics refuse are collected by address. Main statement: an address has the names of its own
diagnostics in their order, and what is then removed depends only on which diagnostics there are. -/

namespace ModuleScaffold

namespace Refusals

/-! ## Names in groups -/

/-- The names that stand beside an address. -/
def namesOf (address : String) (pairs : List (String × String)) : List String :=
  pairs.filterMap fun pair => if pair.1 = address then some pair.2 else none

/-- The names of a group; a group without names is none. -/
def group (names : List String) : Option (List String) := if names = [] then none else some names

theorem getD_group (names : List String) : (group names).getD [] = names := by
  unfold group
  split
  · next h => exact h.symm
  · rfl

theorem group_concat (names : List String) (name : String) : group (names ++ [name]) = some (names ++ [name]) :=
  if_neg (by simp)

theorem merge_group (names others : List String) :
    Option.merge (· ++ ·) (group names) (group others) = group (names ++ others) := by
  unfold group
  cases names with
  | nil => cases others <;> rfl
  | cons name names => cases others <;> simp [Option.merge]

theorem group_ne_nil {names others : List String} (h : group names = some others) : others ≠ [] := by
  unfold group at h
  split at h
  · cases h
  · next hne =>
    cases h
    exact hne

theorem namesOf_concat (address other name : String) (pairs : List (String × String)) :
    namesOf address (pairs ++ [(other, name)]) = namesOf address pairs ++ if other = address then [name] else [] := by
  unfold namesOf
  rw [List.filterMap_append, List.filterMap_cons]
  split <;> simp_all

/-- Refusals that hold, for each address, the names that stand beside it in a list of pairs. -/
structure Groups (r : Refusals) (pairs : List (String × String)) : Prop where
  sorted : Table.Sorted r
  find? : ∀ address, Table.find? address r = group (namesOf address pairs)

theorem Groups.add {r : Refusals} {pairs : List (String × String)} (h : Groups r pairs) (address name : String) :
    Groups (add r address name) (pairs ++ [(address, name)]) := by
  constructor
  · exact Table.sorted_insert h.sorted _ _
  · intro other
    rw [namesOf_concat]
    unfold Refusals.add Table.update
    by_cases hother : other = address
    · rw [if_pos hother.symm, hother, Table.find?_insert_self, h.find?, getD_group, group_concat]
    · rw [if_neg (Ne.symm hother), List.append_nil, Table.find?_insert_of_ne hother, h.find?]

theorem Groups.foldl_add {r : Refusals} {pairs : List (String × String)} (h : Groups r pairs)
    (more : List (String × String)) :
    Groups (more.foldl (fun r (address, name) => Refusals.add r address name) r) (pairs ++ more) := by
  induction more generalizing r pairs with
  | nil =>
    rw [List.append_nil]
    exact h
  | cons pair more ih =>
    have hstep := ih (h.add pair.1 pair.2)
    rw [List.append_assoc] at hstep
    exact hstep

theorem groups_ofDiagnostics (ds : List Diagnostic) : Groups (ofDiagnostics ds) (ds.filterMap Diagnostic.refusal?) := by
  have hnil : Groups [] [] := ⟨List.Pairwise.nil, fun _ => rfl⟩
  exact hnil.foldl_add _

end Refusals

/-! ## Diagnostics that refuse something -/

namespace Diagnostic

/-- The names that errors refuse at an address, in their order. -/
def namesAt (address : String) (ds : List Diagnostic) : List String :=
  ds.filterMap fun d => if d.severity = "error" ∧ d.owner? = some address then d.refusedName? else none

/-- Whether a diagnostic is an error that has an address and an attribute. -/
def Refuses (d : Diagnostic) : Prop := d.severity = "error" ∧ d.owner? ≠ none ∧ d.refusedName? ≠ none

instance : DecidablePred Refuses := fun d => by unfold Refuses; exact inferInstance

theorem namesOf_refusal? (address : String) (ds : List Diagnostic) :
    Refusals.namesOf address (ds.filterMap refusal?) = namesAt address ds := by
  unfold Refusals.namesOf namesAt
  rw [List.filterMap_filterMap]
  apply List.filterMap_congr
  intro d _
  unfold refusal? isError
  by_cases hs : d.severity = "error"
  · cases ho : d.owner? with
    | none => simp [hs]
    | some owner => cases hn : d.refusedName? <;> simp [hs]
  · simp [hs]

theorem refusal?_of_not_refuses {d : Diagnostic} (h : ¬d.Refuses) : d.refusal? = none := by
  unfold Refuses at h
  unfold refusal? isError
  by_cases hs : d.severity = "error"
  · cases ho : d.owner? with
    | none => simp
    | some owner => cases hn : d.refusedName? <;> simp_all
  · simp [hs]

theorem filterMap_refusal?_filter (ds : List Diagnostic) :
    (ds.filter (·.Refuses)).filterMap refusal? = ds.filterMap refusal? := by
  rw [List.filterMap_filter]
  apply List.filterMap_congr
  intro d _
  by_cases hd : d.Refuses
  · simp [hd]
  · simp [hd, refusal?_of_not_refuses hd]

end Diagnostic

namespace SchemaSet

theorem dropRefused_congr {r t : Refusals} (h : ∀ address name, r.Mentions address name ↔ t.Mentions address name)
    (s : SchemaSet) : s.dropRefused r = s.dropRefused t := by
  have hrefused : ∀ type name, name ∈ refusedFor r type ↔ name ∈ refusedFor t type := by
    intro type name
    simp only [mem_refusedFor, h]
  unfold dropRefused
  simp only [List.contains_eq_mem, hrefused]

end SchemaSet

namespace Refusals

/-- Diagnostics are collected by address without loss: an address has the names that the errors at it refuse, in their
order and as often as they are refused, and is not listed when there are none. So two lists one after the other are
collected like each of them, address by address, and what refuses nothing may stand anywhere or be left out. What is
removed from a schema set does not depend on the order of the diagnostics, nor on how often each of them stands. -/
theorem ofDiagnostics_groups_names (ds : List Diagnostic) :
    Table.Sorted (ofDiagnostics ds) ∧
    (∀ address, Table.find? address (ofDiagnostics ds) = group (Diagnostic.namesAt address ds)) ∧
    (∀ address, Table.find? address (ofDiagnostics ds) ≠ some []) ∧
    (∀ es address, Table.find? address (ofDiagnostics (ds ++ es))
      = Option.merge (· ++ ·) (Table.find? address (ofDiagnostics ds)) (Table.find? address (ofDiagnostics es))) ∧
    (∀ es, es.filter (·.Refuses) = ds.filter (·.Refuses) →
      ofDiagnostics es = ofDiagnostics ds) ∧
    ∀ (s : SchemaSet) es, (∀ d, d ∈ es ↔ d ∈ ds) → s.dropRefused (ofDiagnostics es) = s.dropRefused (ofDiagnostics ds) := by
  have hfind : ∀ ds address, Table.find? address (ofDiagnostics ds) = group (Diagnostic.namesAt address ds) := by
    intro ds address
    rw [(groups_ofDiagnostics ds).find?, Diagnostic.namesOf_refusal?]
  refine ⟨(groups_ofDiagnostics ds).sorted, hfind ds, ?filled, ?append, ?silent, ?removal⟩
  case filled =>
    intro address h
    rw [hfind] at h
    exact group_ne_nil h rfl
  case append =>
    intro es address
    rw [hfind, hfind, hfind, merge_group, Diagnostic.namesAt, List.filterMap_append]
    rfl
  case silent =>
    intro es h
    unfold ofDiagnostics
    rw [← Diagnostic.filterMap_refusal?_filter es, h, Diagnostic.filterMap_refusal?_filter]
  case removal =>
    intro s es h
    apply SchemaSet.dropRefused_congr
    intro address name
    simp only [mentions_ofDiagnostics, h]

/-- Errors at two addresses of one type, and diagnostics that refuse nothing: a warning, an error without an address
and one without an attribute. -/
def scattered : List Diagnostic :=
  [⟨"error", "vm_disk.this", "\"size\": this field cannot be set", "", none⟩,
    ⟨"warning", "vm_disk.this", "\"mode\": this field cannot be set", "", none⟩,
    ⟨"error", "vm_disk.this[0]", "invalid or unknown key: path", "", none⟩,
    ⟨"error", "", "invalid or unknown key: mode", "", none⟩, ⟨"error", "vm_disk.this", "no disk", "", none⟩,
    ⟨"error", "vm_disk.this", "invalid or unknown key: path", "", none⟩,
    ⟨"error", "vm_disk.this", "", "Can't configure a value for \"size\"", none⟩]

theorem ofDiagnostics_groups_names_scattered :
    Table.find? "vm_disk.this" (ofDiagnostics scattered) = some ["size", "path", "size"] ∧
    ofDiagnostics (scattered.filter (·.Refuses)) = ofDiagnostics scattered ∧
    ∀ s : SchemaSet, s.dropRefused (ofDiagnostics (scattered.reverse ++ scattered))
      = s.dropRefused (ofDiagnostics scattered) := by
  obtain ⟨-, hfind, -, -, hsilent, hremoval⟩ := ofDiagnostics_groups_names scattered
  refine ⟨?_, hsilent _ (by simp), fun s => hremoval s _ fun d => by simp⟩
  rw [hfind]
  decide

end Refusals

end ModuleScaffold
