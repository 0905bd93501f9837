import ModuleScaffold.Proofs.Passes

/-! # A filter leaves no trace in a module

A module looks up the schema of every request, by the address of its provider and by its type, and nothing else. Main
statement: a filter that keeps what is requested may stand anywhere among the passes over a schema set, and the module
is the same without it. -/

namespace ModuleScaffold

/-! ## What passes leave of a lookup -/

namespace SchemaSet

variable {s t : SchemaSet} {key type : String}

theorem sorted_keepRequested (hs : s.providers.Sorted) (types : List String) :
    (s.keepRequested types).providers.Sorted := by
  have hmap := hs.map fun (_ : String) (resources : Table ResourceSchema) => resources.filter (·.1 ∈ types)
  exact List.Pairwise.filter _ hmap

theorem sorted_mapBlocks (hs : s.providers.Sorted) (f : String → Block → Block) :
    (s.mapBlocks f).providers.Sorted := by
  have hmap := hs.map fun (_ : String) (resources : Table ResourceSchema) =>
    resources.map fun e => (e.1, ({ e.2 with block := f e.1 e.2.block } : ResourceSchema))
  exact hmap

theorem sorted_apply (hs : s.providers.Sorted) (q : Pass) : (q.apply s).providers.Sorted := by
  cases q with
  | filter requested => exact sorted_keepRequested hs requested
  | prune => exact sorted_mapBlocks hs _
  | remove refusals => exact sorted_mapBlocks hs _

theorem sorted_after (hs : s.providers.Sorted) (passes : List Pass) : (s.after passes).providers.Sorted := by
  induction passes generalizing s with
  | nil => exact hs
  | cons q rest ih => exact ih (sorted_apply hs q)

theorem resource?_keepRequested_of_not_mem {types : List String} (ht : type ∉ types) (key : String) :
    (s.keepRequested types).resource? key type = none := by
  cases hfound : (s.keepRequested types).resource? key type with
  | none => rfl
  | some schema =>
    obtain ⟨kept, hkept, hschema⟩ := Option.bind_eq_some_iff.mp hfound
    obtain ⟨hprovider, -⟩ := List.mem_filter.mp (Table.mem_of_find? hkept)
    obtain ⟨e, -, heq⟩ := List.mem_map.mp hprovider
    cases heq
    have hrequested := (List.mem_filter.mp (Table.mem_of_find? hschema)).2
    exact absurd (of_decide_eq_true hrequested) ht

/-- Schema sets that answer a lookup alike do so after a pass. -/
theorem resource?_apply_congr (hs : s.providers.Sorted) (ht : t.providers.Sorted)
    (h : t.resource? key type = s.resource? key type) (q : Pass) :
    (q.apply t).resource? key type = (q.apply s).resource? key type := by
  cases q with
  | filter requested =>
    unfold Pass.apply
    by_cases hrequested : type ∈ requested
    · rw [resource?_keepRequested hs hrequested, resource?_keepRequested ht hrequested, h]
    · rw [resource?_keepRequested_of_not_mem hrequested, resource?_keepRequested_of_not_mem hrequested]
  | prune =>
    unfold Pass.apply prune
    rw [resource?_mapBlocks, resource?_mapBlocks, h]
  | remove refusals =>
    unfold Pass.apply dropRefused
    rw [resource?_mapBlocks, resource?_mapBlocks, h]

theorem resource?_after_congr (hs : s.providers.Sorted) (ht : t.providers.Sorted)
    (h : t.resource? key type = s.resource? key type) (passes : List Pass) :
    (t.after passes).resource? key type = (s.after passes).resource? key type := by
  induction passes generalizing s t with
  | nil => exact h
  | cons q rest ih => exact ih (sorted_apply hs q) (sorted_apply ht q) (resource?_apply_congr hs ht h q)

/-- The schema set without the entry of a provider. -/
def withoutProvider (key : String) (s : SchemaSet) : SchemaSet := { s with providers := s.providers.erase key }

theorem resource?_withoutProvider_self (key type : String) : (s.withoutProvider key).resource? key type = none := by
  have hgone := Table.find?_erase_self key s.providers
  unfold resource? withoutProvider
  rw [hgone, Option.bind_none]

theorem resource?_withoutProvider_of_ne {other : String} (h : other ≠ key) (type : String) :
    (s.withoutProvider key).resource? other type = s.resource? other type := by
  have hkept := Table.find?_erase_of_ne h s.providers
  unfold resource? withoutProvider
  rw [hkept]

/-- A provider whose entry a filter drops has none of the resources that the filter is for. -/
theorem resource?_of_dropped (hs : s.providers.Sorted) {types : List String} (ht : type ∈ types)
    (hkey : ∀ kept, (key, kept) ∉ (s.keepRequested types).providers) : s.resource? key type = none := by
  rw [← resource?_keepRequested hs ht]
  unfold resource?
  cases hfind : (s.keepRequested types).providers.find? key with
  | none => rfl
  | some kept => exact absurd (Table.mem_of_find? hfind) (hkey kept)

end SchemaSet

/-! ## What a module is made from -/

namespace Plan

variable {p : Plan} {s t : SchemaSet}

theorem found_congr
    (h : ∀ r ∈ p.requests, t.resource? (p.addressOf r) r.type = s.resource? (p.addressOf r) r.type) :
    p.found t = p.found s := by
  unfold found
  apply List.filterMap_congr
  intro r hr
  rw [h r hr]

theorem generate_congr
    (h : ∀ r ∈ p.requests, t.resource? (p.addressOf r) r.type = s.resource? (p.addressOf r) r.type) :
    p.generate t = p.generate s := by
  unfold generate
  rw [flatMap_mainLines, flatMap_mainLines, flatMap_variableLines, flatMap_variableLines, found_congr h]

theorem generate_after_filter (hs : s.providers.Sorted) {types : List String}
    (ht : ∀ r ∈ p.requests, r.type ∈ types) (later : List SchemaSet.Pass) :
    p.generate ((s.keepRequested types).after later) = p.generate (s.after later) := by
  apply generate_congr
  intro r hr
  apply SchemaSet.resource?_after_congr hs (SchemaSet.sorted_keepRequested hs types)
  exact SchemaSet.resource?_keepRequested hs (ht r hr) (p.addressOf r)

/-- A filter for what is requested leaves no trace in the module, whether it is the only pass or stands before a
pruning, before a removal or anywhere among other passes. The providers that it drops leave none either, and neither
does anything else that no request names by its provider and its type, such as a resource of a requested type in
another provider. -/
theorem filter_leaves_no_trace (p : Plan) (s : SchemaSet) (hs : s.providers.Sorted) :
    p.generate (s.keepRequested (p.requests.map (·.type))) = p.generate s ∧
    p.generate (s.keepRequested (p.requests.map (·.type))).prune = p.generate s.prune ∧
    (∀ refusals, p.generate ((s.keepRequested (p.requests.map (·.type))).dropRefused refusals)
      = p.generate (s.dropRefused refusals)) ∧
    (∀ before later, p.generate (s.after (before ++ .filter (p.requests.map (·.type)) :: later))
      = p.generate (s.after (before ++ later))) ∧
    (∀ key, (∀ kept, (key, kept) ∉ (s.keepRequested (p.requests.map (·.type))).providers) →
      p.generate (s.withoutProvider key) = p.generate s) ∧
    ∀ t : SchemaSet, (∀ key type, (∃ r ∈ p.requests, p.addressOf r = key ∧ r.type = type) →
      t.resource? key type = s.resource? key type) → p.generate t = p.generate s := by
  have htypes : ∀ r ∈ p.requests, r.type ∈ p.requests.map (·.type) :=
    fun r hr => List.mem_map.mpr ⟨r, hr, rfl⟩
  refine ⟨generate_after_filter hs htypes [], generate_after_filter hs htypes [.prune],
    fun refusals => generate_after_filter hs htypes [.remove refusals], ?among, ?dropped, ?unnamed⟩
  case among =>
    intro before later
    have hfilter := generate_after_filter (SchemaSet.sorted_after hs before) htypes later
    unfold SchemaSet.after at hfilter ⊢
    rw [List.foldl_append, List.foldl_append, List.foldl_cons]
    exact hfilter
  case dropped =>
    intro key hkey
    apply generate_congr
    intro r hr
    by_cases haddress : p.addressOf r = key
    · rw [haddress, SchemaSet.resource?_withoutProvider_self, SchemaSet.resource?_of_dropped hs (htypes r hr) hkey]
    · exact SchemaSet.resource?_withoutProvider_of_ne haddress r.type
  case unnamed =>
    intro t h
    exact generate_congr fun r hr => h _ _ ⟨r, hr, rfl, rfl⟩

/-- Requests for a type that two providers have, for one that is missing, and for the first one again. -/
def diskPlan : Plan :=
  ⟨[volumeRequest "vm_disk" .multiple, volumeRequest "vm_swap" .multiple, volumeRequest "vm_disk" .single],
    "host", true⟩

def diskTypes : List String := ["vm_disk", "vm_swap", "vm_disk"]

theorem filter_leaves_no_trace_disks :
    SchemaSet.diskSchemas.providers.Sorted ∧
    (SchemaSet.diskSchemas.keepRequested diskTypes).providers.map (fun e => (e.1, e.2.map (·.1)))
      = [("host/owner/other", ["vm_disk"]), ("host/owner/vm", ["vm_disk"])] ∧
    diskPlan.generate (SchemaSet.diskSchemas.keepRequested diskTypes).prune
      = diskPlan.generate SchemaSet.diskSchemas.prune ∧
    diskPlan.generate (SchemaSet.diskSchemas.after [.prune, .filter diskTypes, .remove [("vm_disk.this", ["size"])]])
      = diskPlan.generate (SchemaSet.diskSchemas.after [.prune, .remove [("vm_disk.this", ["size"])]]) ∧
    diskPlan.generate (SchemaSet.diskSchemas.withoutProvider "host/owner/zone")
      = diskPlan.generate SchemaSet.diskSchemas := by
  have hs : SchemaSet.diskSchemas.providers.Sorted := by unfold Table.Sorted; decide
  obtain ⟨-, hprune, -, hamong, hdropped, -⟩ := filter_leaves_no_trace diskPlan SchemaSet.diskSchemas hs
  have hkept : (SchemaSet.diskSchemas.keepRequested diskTypes).providers.map (fun e => (e.1, e.2.map (·.1)))
      = [("host/owner/other", ["vm_disk"]), ("host/owner/vm", ["vm_disk"])] := by decide
  refine ⟨hs, hkept, hprune, hamong [.prune] [.remove [("vm_disk.this", ["size"])]], hdropped _ ?_⟩
  intro kept hmem
  have hkey : ("host/owner/zone", kept.map (·.1))
      ∈ (SchemaSet.diskSchemas.keepRequested diskTypes).providers.map (fun e => (e.1, e.2.map (·.1))) :=
    List.mem_map.mpr ⟨_, hmem, rfl⟩
  rw [hkept] at hkey
  exact absurd hkey (by simp)

end Plan

end ModuleScaffold
