import ModuleScaffold.Proofs.Provider.Accepted
import ModuleScaffold.Proofs.Paired
import Mathlib.Data.List.Nodup

/-! # Canonical provider arguments

Neither the order of provider arguments nor the case of their names says anything. Main statement: which lists of arguments
are refused, and that an accepted one makes the same table as the canonical spellings of its providers. -/

namespace ModuleScaffold

namespace Provider

/-! ## The case of names -/

/-- The part of an argument that names its provider: everything before the first colon. -/
def namesOf (input : String) : List Char := input.toList.takeWhile (· ≠ ':')

/-- The part behind it, which begins with the colon. -/
def restOf (input : String) : List Char := input.toList.dropWhile (· ≠ ':')

/-- What an argument names, in lower case. -/
def named (input : String) : String := Text.lower (String.ofList (namesOf input))

/-- An argument with its names in lower case. -/
def lowered (input : String) : String := String.ofList ((namesOf input).map Text.lowerChar ++ restOf input)

theorem takeWhile_ne_append {mark : Char} {left : List Char} (h : mark ∉ left) (rest : List Char) :
    (left ++ mark :: rest).takeWhile (· ≠ mark) = left ∧ (left ++ mark :: rest).dropWhile (· ≠ mark) = mark :: rest := by
  have hall : ∀ c ∈ left, decide (c ≠ mark) = true := fun c hc => by
    rw [decide_eq_true_eq]
    rintro rfl
    exact h hc
  constructor
  · rw [List.takeWhile_append_of_pos hall, List.takeWhile_cons_of_neg (by simp), List.append_nil]
  · rw [List.dropWhile_append_of_pos hall, List.dropWhile_cons_of_neg (by simp)]

/-- An argument without a colon, or one that is cut at its first colon. -/
theorem splitArgument_cases (input : String) :
    (restOf input = [] ∧ ':' ∉ namesOf input ∧ splitArgument input.toList = (namesOf input, none)) ∨
      ∃ text, restOf input = ':' :: text ∧ ':' ∉ namesOf input ∧
        splitArgument input.toList = (namesOf input, some text) := by
  unfold namesOf restOf splitArgument
  cases hsplit : Text.splitAt? ':' input.toList with
  | none =>
    have hcolon := Text.splitAt?_eq_none_iff.mp hsplit
    have hall : ∀ c ∈ input.toList, decide (c ≠ ':') = true := fun c hc => by
      rw [decide_eq_true_eq]
      rintro rfl
      exact hcolon hc
    have htake := List.takeWhile_eq_self_iff.mpr hall
    exact .inl ⟨List.dropWhile_eq_nil_iff.mpr hall, htake.symm ▸ hcolon, by rw [htake]⟩
  | some parts =>
    obtain ⟨names, text⟩ := parts
    obtain ⟨hinput, hcolon⟩ := Text.splitAt?_eq_some hsplit
    obtain ⟨htake, hdrop⟩ := takeWhile_ne_append hcolon text
    rw [hinput, htake, hdrop]
    exact .inr ⟨text, rfl, hcolon, rfl⟩

theorem colon_not_mem_map {names : List Char} (h : ':' ∉ names) : ':' ∉ names.map Text.lowerChar := by
  rw [List.mem_map]
  rintro ⟨c, hc, hlower⟩
  rw [(Text.lowerChar_eq_mark_iff rfl c).mp hlower] at hc
  exact h hc

theorem splitArgument_lowered (input : String) : splitArgument (lowered input).toList =
    ((splitArgument input.toList).1.map Text.lowerChar, (splitArgument input.toList).2) := by
  unfold lowered
  rw [String.toList_ofList]
  obtain ⟨hrest, hcolon, hsplit⟩ | ⟨text, hrest, hcolon, hsplit⟩ := splitArgument_cases input
  · rw [hsplit, hrest, List.append_nil, splitArgument_unconstrained (colon_not_mem_map hcolon)]
  · rw [hsplit, hrest, splitArgument_constrained (colon_not_mem_map hcolon)]

theorem parse_lowered (input : String) : parse (lowered input) = parse input := by
  unfold parse
  rw [splitArgument_lowered]
  simp only [Text.splitAt?_map_lowerChar (rfl : Text.isLetter '/' = false)]
  cases Text.splitAt? '/' (splitArgument input.toList).1 with
  | none => rfl
  | some parts => simp only [Option.map_some, isName_map_lowerChar, Text.lower_ofList_map]

theorem source_of_parse {input : String} {p : Provider} (h : parse input = .ok p) : p.source = named input := by
  obtain ⟨owner, name, constraints, version, -, -, hsplit, -, -, rfl⟩ := (parse_eq_ok_iff input p).mp h
  have hnames : namesOf input = owner ++ '/' :: name := by
    obtain ⟨-, -, hcut⟩ | ⟨text, -, -, hcut⟩ := splitArgument_cases input <;>
      exact (Prod.mk.inj (hcut.symm.trans hsplit)).1
  have hslash : Text.lowerChar '/' = '/' := rfl
  rw [named, hnames, ← String.toList_inj]
  simp [source, ofParts, Text.lower, hslash]

/-! ## Canonical spellings -/

/-- The spelling of a provider as an argument. -/
def canonical (p : Provider) : String := p.source ++ ":" ++ p.version

/-- A provider as it is read: plain, in lower case, and with constraints that have no blanks around them. -/
structure IsRead (p : Provider) : Prop extends p.IsPlain where
  owner_lower : Text.lower p.owner = p.owner
  name_lower : Text.lower p.name = p.name
  constraints : isConstraintList p.version.toList = true
  trimmed : Text.trim p.version.toList = p.version.toList

theorem isRead_of_parse {input : String} {p : Provider} (h : parse input = .ok p) : p.IsRead := by
  have hplain := isPlain_of_parse h
  obtain ⟨owner, name, constraints, version, -, -, -, -, hversion, rfl⟩ := (parse_eq_ok_iff input p).mp h
  refine { hplain with owner_lower := Text.lower_lower _, name_lower := Text.lower_lower _, constraints := ?_, trimmed := ?_ }
  · cases constraints with
    | none =>
      cases hversion
      exact show isConstraintList anyVersion.toList = true by decide
    | some text =>
      obtain ⟨hlist, rfl⟩ := (parseConstraints_some text version).mp hversion
      simpa [ofParts, isConstraintList_trim] using hlist
  · cases constraints with
    | none =>
      cases hversion
      exact show Text.trim anyVersion.toList = anyVersion.toList by decide
    | some text =>
      obtain ⟨-, rfl⟩ := (parseConstraints_some text version).mp hversion
      simp [ofParts, Text.trim_trim]

theorem parse_canonical {p : Provider} (h : p.IsRead) : parse (canonical p) = .ok p := by
  have hcolon := not_colon_mem h.owner h.name
  have hinput : (canonical p).toList = (p.owner.toList ++ '/' :: p.name.toList) ++ ':' :: p.version.toList := by
    simp [canonical, source]
  have hne : p.version.toList ≠ [] := by
    intro hnil
    have hlist := h.constraints
    rw [hnil] at hlist
    exact absurd hlist (by decide)
  have hfits : constraintsFit (some p.version.toList) = true := by
    simpa [constraintsFit, hne] using h.version
  have hsame : p = ofParts p.owner.toList p.name.toList p.version := by
    simp [ofParts, h.owner_lower, h.name_lower]
  refine (parse_eq_ok_iff _ _).mpr ⟨_, _, some p.version.toList, p.version, h.owner, h.name, ?_, hfits, ?_, hsame⟩
  · rw [hinput, splitArgument_constrained hcolon]
  · rw [parseConstraints_some, h.trimmed, String.ofList_toList]
    exact ⟨h.constraints, rfl⟩

end Provider

namespace Arguments

/-! ## The table of a list of arguments -/

/-- Arguments that can be read are refused together only when two of them name one provider. -/
theorem providers_eq_error_iff (inputs : List String) : (∃ e, providers inputs = .error e) ↔
    (∃ input ∈ inputs, ∃ f, Provider.parse input = .error f) ∨ ¬(inputs.map Provider.named).Nodup := by
  have hnamed {ps : List Provider} (h : List.Forall₂ (fun input p => Provider.parse input = .ok p) inputs ps) :
      ps.map Provider.source = inputs.map Provider.named := by
    induction h with
    | nil => rfl
    | cons hparse _ ih => rw [List.map_cons, List.map_cons, Provider.source_of_parse hparse, ih]
  constructor
  · rintro ⟨e, he⟩
    by_contra hgood
    rw [not_or, not_not] at hgood
    obtain ⟨ps, hps⟩ : ∃ ps, List.Forall₂ (fun input p => Provider.parse input = .ok p) inputs ps := by
      apply Paired.exists_of_forall
      intro input hinput
      cases hparse : Provider.parse input with
      | error f => exact absurd ⟨input, hinput, f, hparse⟩ hgood.1
      | ok p => exact ⟨p, rfl⟩
    rw [providers_eq_ok_iff.mpr ⟨ps, hps, by rw [hnamed hps]; exact hgood.2, rfl⟩] at he
    cases he
  · intro hbad
    cases hproviders : providers inputs with
    | error e => exact ⟨e, rfl⟩
    | ok table =>
      obtain ⟨ps, hps, hnodup, -⟩ := providers_eq_ok_iff.mp hproviders
      rcases hbad with ⟨input, hinput, f, hf⟩ | htwice
      · obtain ⟨p, -, hp⟩ := Paired.exists_of_mem_left hps hinput
        rw [hf] at hp
        cases hp
      · exact absurd (hnamed hps ▸ hnodup) htwice

/-! ## Arguments that make the same table -/

theorem bySource_eq_of_perm {ps qs : List Provider} (hn : (ps.map Provider.source).Nodup) (h : ps.Perm qs) :
    bySource ps = bySource qs :=
  Table.ofList_eq_of_perm (by rwa [List.map_map]) (h.map _)

theorem providers_of_perm {inputs others : List String} {table : Table Provider} (h : inputs.Perm others)
    (hproviders : providers inputs = .ok table) : providers others = .ok table := by
  obtain ⟨ps, hps, hnodup, rfl⟩ := providers_eq_ok_iff.mp hproviders
  obtain ⟨qs, hqs, hperm⟩ := List.perm_comp_forall₂ h.symm hps
  have hsources : (qs.map Provider.source).Nodup := (hperm.map _).nodup_iff.mpr hnodup
  exact providers_eq_ok_iff.mpr ⟨qs, hqs, hsources, bySource_eq_of_perm hsources hperm⟩

theorem providers_of_lowered {inputs others : List String} {table : Table Provider}
    (h : inputs.map Provider.lowered = others.map Provider.lowered) (hproviders : providers inputs = .ok table) :
    providers others = .ok table := by
  have hlowered (arguments : List String) (ps : List Provider) :
      List.Forall₂ (fun input p => Provider.parse input = .ok p) (arguments.map Provider.lowered) ps ↔
        List.Forall₂ (fun input p => Provider.parse input = .ok p) arguments ps := by
    rw [List.forall₂_map_left_iff]
    simp only [Provider.parse_lowered]
  obtain ⟨ps, hps, hrest⟩ := providers_eq_ok_iff.mp hproviders
  rw [← hlowered, h, hlowered] at hps
  exact providers_eq_ok_iff.mpr ⟨ps, hps, hrest⟩

theorem bySource_values {table : Table Provider} (h : IsBySource table) : bySource table.values = table := by
  have hentries : (table.values.map fun p => (p.source, p)) = table := by
    rw [Table.values, List.map_map]
    conv => rhs; rw [← List.map_id table]
    exact List.map_congr_left fun e he => Prod.ext (h.source e he).symm rfl
  rw [bySource, hentries, h.sorted.ofList_eq_self]

theorem providers_canonical {inputs others : List String} {table : Table Provider}
    (hproviders : providers inputs = .ok table) (h : others.Perm (table.values.map Provider.canonical)) :
    providers others = .ok table := by
  obtain ⟨hsource, ps, hps, hperm⟩ := providers_spec hproviders
  refine providers_of_perm h.symm (providers_eq_ok_iff.mpr ⟨table.values, ?_, ?_, bySource_values hsource⟩)
  · rw [List.forall₂_map_left_iff, List.forall₂_same]
    intro p hp
    obtain ⟨input, -, hparse⟩ := Paired.exists_of_mem_right hps (hperm.mem_iff.mp hp)
    exact Provider.parse_canonical (Provider.isRead_of_parse hparse)
  · rw [List.Nodup, List.pairwise_map]
    exact hsource.pairwise_source.imp String.ne_of_lt

theorem toOption_congr {ε α : Type} {r r' : Except ε α} (h : ∀ a, r = .ok a ↔ r' = .ok a) : r.toOption = r'.toOption := by
  cases r with
  | ok a => rw [(h a).mp rfl]
  | error e =>
    cases r' with
    | ok a => cases (h a).mpr rfl
    | error e' => rfl

/-- Arguments are refused when one of them is, or when two of them name one provider in whatever case; otherwise the table
has one provider for each of them, under its source. It is the same in every order of the arguments and in every case of
their names, and the canonical spellings of its providers make it again. -/
theorem arguments_have_one_meaning (inputs : List String) :
    ((∃ e, providers inputs = .error e) ↔
      (∃ input ∈ inputs, ∃ f, Provider.parse input = .error f) ∨ ¬(inputs.map Provider.named).Nodup) ∧
    (∀ table, providers inputs = .ok table → table.Sorted ∧
      ∃ ps, List.Forall₂ (fun input p => Provider.parse input = .ok p ∧ p.source = Provider.named input) inputs ps ∧
        table.Perm (ps.map fun p => (p.source, p))) ∧
    (∀ others, inputs.Perm others → (providers others).toOption = (providers inputs).toOption) ∧
    (∀ others, inputs.map Provider.lowered = others.map Provider.lowered →
      (providers others).toOption = (providers inputs).toOption) ∧
    ∀ table, providers inputs = .ok table →
      ∀ others, others.Perm (table.values.map Provider.canonical) → providers others = .ok table := by
  refine ⟨providers_eq_error_iff inputs, ?_, ?_, ?_, fun table h others => providers_canonical h⟩
  · intro table h
    obtain ⟨ps, hps, hnodup, rfl⟩ := providers_eq_ok_iff.mp h
    refine ⟨Table.sorted_ofList _, ps, ?_, Table.perm_ofList (by rwa [List.map_map])⟩
    exact hps.imp fun input p hp => ⟨hp, Provider.source_of_parse hp⟩
  · exact fun others h => toOption_congr fun _ => ⟨providers_of_perm h.symm, providers_of_perm h⟩
  · exact fun others h => toOption_congr fun _ => ⟨providers_of_lowered h.symm, providers_of_lowered h⟩

def mixedArguments : List String := ["hashicorp/Random:~> 3.5", "Azure/AzAPI"]

def mixedProviders : Table Provider :=
  [("azure/azapi", ⟨"azure", "azapi", ">= 0"⟩), ("hashicorp/random", ⟨"hashicorp", "random", "~> 3.5"⟩)]

theorem arguments_have_one_meaning_mixed : providers mixedArguments = .ok mixedProviders ∧
    (providers ["Azure/AzAPI", "hashicorp/Random:~> 3.5"]).toOption = some mixedProviders ∧
    (providers ["HashiCorp/random:~> 3.5", "azure/azapi"]).toOption = some mixedProviders ∧
    providers ["hashicorp/random:~> 3.5", "azure/azapi:>= 0"] = .ok mixedProviders := by
  have hproviders : providers mixedArguments = .ok mixedProviders := by decide
  obtain ⟨-, -, hperm, hlowered, hcanonical⟩ := arguments_have_one_meaning mixedArguments
  rw [hproviders] at hperm hlowered
  have hcase : mixedArguments.map Provider.lowered = ["HashiCorp/random:~> 3.5", "azure/azapi"].map Provider.lowered := by
    decide
  exact ⟨hproviders, hperm _ (.swap _ _ _), hlowered _ hcase, hcanonical _ hproviders _ (.swap _ _ _)⟩

end Arguments
end ModuleScaffold
