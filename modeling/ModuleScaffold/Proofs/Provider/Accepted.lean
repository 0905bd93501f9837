import ModuleScaffold.Arguments
import ModuleScaffold.Proofs.Provider.Grammar
import ModuleScaffold.Proofs.Table
import ModuleScaffold.Proofs.Text.Case
import Mathlib.Data.List.Forall2

/-! # Accepted providers

Accepted arguments make a table with one provider for each of them, under its source. -/

namespace ModuleScaffold

/-! ## Arguments -/

namespace Arguments

theorem add_eq_ok_iff {known table : Table Provider} {input : String} :
    Provider.add known input = .ok table
      ↔ ∃ p, Provider.parse input = .ok p ∧ known.find? p.source = none ∧ table = known.insert p.source p := by
  unfold Provider.add Table.has
  cases Provider.parse input with
  | error f => simp
  | ok p =>
    cases hfind : known.find? p.source with
    | none => simp [hfind, eq_comm]
    | some old => simp [hfind]

/-- A table that holds each provider under its source. -/
structure IsBySource (table : Table Provider) : Prop where
  sorted : table.Sorted
  source : ∀ e ∈ table, e.1 = e.2.source

theorem IsBySource.pairwise_source {table : Table Provider} (h : IsBySource table) :
    table.values.Pairwise fun p q => p.source < q.source := by
  rw [Table.values, List.pairwise_map]
  exact h.sorted.imp_of_mem fun ha hb hlt => by rwa [← h.source _ ha, ← h.source _ hb]

theorem providersFrom_eq_ok_iff {inputs : List String} {known table : Table Provider} :
    providersFrom known inputs = .ok table ↔ ∃ ps, List.Forall₂ (fun input p => Provider.parse input = .ok p) inputs ps ∧
      (ps.map Provider.source).Nodup ∧ (∀ p ∈ ps, known.find? p.source = none) ∧
      (ps.map fun p => (p.source, p)).foldl (fun t e => t.insert e.1 e.2) known = table := by
  induction inputs generalizing known with
  | nil => simp [providersFrom]
  | cons input inputs ih =>
    rw [providersFrom]
    constructor
    · intro h
      split at h
      · next next hadd =>
        obtain ⟨p, hparse, hnew, rfl⟩ := add_eq_ok_iff.mp hadd
        obtain ⟨ps, hps, hnodup, hall, htable⟩ := ih.mp h
        have hother : ∀ q ∈ ps, q.source ≠ p.source := fun q hq heq => by
          have hfound := hall q hq
          rw [heq, Table.find?_insert_self] at hfound
          cases hfound
        refine ⟨p :: ps, .cons hparse hps, List.nodup_cons.mpr ⟨?_, hnodup⟩, List.forall_mem_cons.mpr ⟨hnew, ?_⟩, htable⟩
        · rw [List.mem_map]
          rintro ⟨q, hq, heq⟩
          exact hother q hq heq
        · intro q hq
          rw [← Table.find?_insert_of_ne (hother q hq) p known, hall q hq]
      · cases h
    · rintro ⟨_, hparsed, hnodup, hall, htable⟩
      obtain ⟨p, ps, hparse, hps, rfl⟩ := List.forall₂_cons_left_iff.mp hparsed
      obtain ⟨hnew, hall⟩ := List.forall_mem_cons.mp hall
      obtain ⟨hother, hnodup⟩ := List.nodup_cons.mp hnodup
      have hadd := add_eq_ok_iff.mpr ⟨p, hparse, hnew, rfl⟩
      rw [hadd]
      refine ih.mpr ⟨ps, hps, hnodup, fun q hq => ?_, htable⟩
      have hne : q.source ≠ p.source := fun heq => hother (heq ▸ List.mem_map_of_mem hq)
      rw [Table.find?_insert_of_ne hne, hall q hq]

/-- The table of providers by their sources. -/
def bySource (ps : List Provider) : Table Provider := Table.ofList (ps.map fun p => (p.source, p))

theorem providers_eq_ok_iff {inputs : List String} {table : Table Provider} :
    providers inputs = .ok table ↔ ∃ ps, List.Forall₂ (fun input p => Provider.parse input = .ok p) inputs ps ∧
      (ps.map Provider.source).Nodup ∧ bySource ps = table := by
  rw [providers, providersFrom_eq_ok_iff]
  simp [bySource, Table.ofList]

theorem isBySource_bySource (ps : List Provider) : IsBySource (bySource ps) := by
  refine ⟨Table.sorted_ofList _, ?_⟩
  intro e he
  obtain ⟨p, -, rfl⟩ := List.mem_map.mp (Table.mem_of_mem_ofList he)
  rfl

theorem values_bySource {ps : List Provider} (h : (ps.map Provider.source).Nodup) : (bySource ps).values.Perm ps := by
  have hnames : ((ps.map fun p => (p.source, p)).map (·.1)).Nodup := by rwa [List.map_map]
  have hperm := (Table.perm_ofList hnames).map Prod.snd
  rw [List.map_map] at hperm
  exact hperm.trans (.of_eq (List.map_id ps))

theorem providers_spec {inputs : List String} {table : Table Provider} (h : providers inputs = .ok table) :
    IsBySource table ∧ ∃ ps, List.Forall₂ (fun input p => Provider.parse input = .ok p) inputs ps ∧
      table.values.Perm ps := by
  obtain ⟨ps, hps, hnodup, rfl⟩ := providers_eq_ok_iff.mp h
  exact ⟨isBySource_bySource ps, ps, hps, values_bySource hnodup⟩

end Arguments

/-! ## Characters of providers -/

namespace Provider

theorem isNameChar_lowerChar (c : Char) : isNameChar (Text.lowerChar c) = isNameChar c := by
  by_cases h : ('A' ≤ c && c ≤ 'Z') = true
  · have hupper : isNameChar c = true := by simp [isNameChar, Text.isLetter, h]
    rw [Text.of_lowerChar (p := isNameChar) (by rfl) h, hupper]
  · rw [Text.lowerChar_of_not_upper h]

theorem isName_map_lowerChar (s : List Char) : isName (s.map Text.lowerChar) = isName s := by
  simp [isName, isNameChar_lowerChar, Function.comp_def]

/-- A provider whose names have characters of names only, and whose constraints have characters of constraints. -/
structure IsPlain (p : Provider) : Prop where
  owner : IsPart p.owner.toList
  name : IsPart p.name.toList
  version : ∀ c ∈ p.version.toList, isConstraintChar c = true

theorem IsPart.lower {s : List Char} (h : IsPart s) : IsPart (Text.lower (String.ofList s)).toList := by
  rw [← isName_iff] at h ⊢
  rwa [Text.lower, String.toList_ofList, String.toList_ofList, isName_map_lowerChar]

theorem isPlain_of_parse {input : String} {p : Provider} (h : parse input = .ok p) : p.IsPlain := by
  obtain ⟨cs, hnames, hcs⟩ := (parse_eq_ok_iff_names input p).mp h
  generalize input.toList = s at hnames
  cases hnames with
  | unconstrained ho hn =>
    have hany : ∀ c ∈ ">= 0".toList, isConstraintChar c = true := List.all_eq_true.mp (by decide)
    exact ⟨ho.lower, hn.lower, hany⟩
  | @constrained owner name text _ ho hn hc =>
    refine ⟨ho.lower, hn.lower, ?_⟩
    obtain ⟨before, after, htext, -, -⟩ := Text.exists_eq_trim text
    intro c hmem
    rw [String.toList_ofList] at hmem
    apply hc.isConstraintChar hcs
    rw [htext]
    simp [hmem]

theorem isPlain_of_mem {inputs : List String} {ps : List Provider}
    (h : List.Forall₂ (fun input p => parse input = .ok p) inputs ps) : ∀ p ∈ ps, p.IsPlain := by
  induction h with
  | nil => simp
  | cons hp _ ih => exact List.forall_mem_cons.mpr ⟨isPlain_of_parse hp, ih⟩

end Provider

end ModuleScaffold
