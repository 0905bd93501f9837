import ModuleScaffold.RequiredProviders
import ModuleScaffold.Proofs.Provider.Accepted
import ModuleScaffold.Proofs.Text.Lines
import Mathlib.Data.List.Nodup

/-! # Providers that are pinned

The block of required providers has one entry for each accepted argument. It is written under the name of the provider
alone, while accepted providers are told apart by owner and name. Main statement: what the block pins when it is read
back, and when an entry can be found by its key. -/

namespace ModuleScaffold

/-! ## Tables of entries -/

namespace Table

variable {α : Type}

/-- Different entries are all found by their names exactly when they have names of their own. -/
theorem nodup_names_iff_find? {entries : List (String × α)} (hn : entries.Nodup) :
    (entries.map (·.1)).Nodup ↔ ∀ e ∈ entries, (ofList entries).find? e.1 = some e.2 := by
  constructor
  · intro hnames e he
    exact find?_of_mem (sorted_ofList entries).nodup_names ((perm_ofList hnames).mem_iff.mpr he)
  · intro hfind
    apply List.Nodup.map_on _ hn
    intro d hd e he hname
    have hvalue := (hfind d hd).symm.trans (hname ▸ hfind e he)
    exact Prod.ext hname (Option.some.inj hvalue)

end Table

namespace RequiredProviders

/-! ## Reading the block -/

/-- What a line holds between its beginning and its ending. -/
def between? (front back : String) (line : List Char) : Option String :=
  (Text.after? front.toList line).bind fun rest =>
    (Text.after? back.toList.reverse rest.reverse).map fun inner => String.ofList inner.reverse

/-- The entries in the lines below the opening of the block. -/
def readEntries : List (List Char) → Option (List Entry)
  | key :: source :: version :: closing :: rest => do
    let key ← between? "    " " = \x7b" key
    let source ← between? "      \"source\" = \"" "\"" source
    let version ← between? "      \"version\" = \"" "\"" version
    if closing = "    \x7d".toList then
      let es ← readEntries rest
      return ⟨key, source, version⟩ :: es
    else none
  | [inner, outer] => if inner = "  \x7d".toList ∧ outer = "\x7d".toList then some [] else none
  | _ => none

/-- The entries of a file. -/
def readAll (s : String) : Option (List Entry) :=
  match Text.lines s.toList with
  | first :: second :: rest =>
    if first ≠ "terraform \x7b".toList then none
    else if second = "  required_providers \x7b".toList then readEntries rest
    else if second = "  required_providers \x7b  \x7d".toList ∧ rest = ["\x7d".toList] then some []
    else none
  | _ => none

theorem between?_append (front back s : String) : between? front back (front ++ s ++ back).toList = some s := by
  have hback : (s.toList ++ back.toList).reverse = back.toList.reverse ++ s.toList.reverse := List.reverse_append
  rw [between?, String.toList_append, String.toList_append, List.append_assoc, Text.after?_append, Option.bind_some,
    hback, Text.after?_append]
  simp

theorem readEntries_cons (e : Entry) (rest : List (List Char)) :
    readEntries (e.lines.map String.toList ++ rest) = (readEntries rest).map (e :: ·) := by
  simp only [Entry.lines, List.map_cons, List.map_nil, List.cons_append, List.nil_append]
  rw [readEntries, between?_append, between?_append, between?_append]
  cases readEntries rest <;> rfl

theorem readEntries_lines (es : List Entry) :
    readEntries ((es.flatMap Entry.lines ++ ["  \x7d", "\x7d"]).map String.toList) = some es := by
  induction es with
  | nil => rfl
  | cons e es ih =>
    rw [List.flatMap_cons, List.append_assoc, List.map_append, readEntries_cons, ih]
    rfl

/-- No line of an entry ends before the entry does. -/
structure Entry.OnLines (e : Entry) : Prop where
  key : '\n' ∉ e.key.toList
  source : '\n' ∉ e.source.toList
  version : '\n' ∉ e.version.toList

theorem isLine_between {front back s : String} (hs : '\n' ∉ s.toList) (hf : '\n' ∉ front.toList)
    (hb : '\n' ∉ back.toList) {last : Char} (hlast : back.toList.getLast? = some last) (hr : last ≠ '\r') :
    Text.IsLine (front ++ s ++ back).toList := by
  rw [String.toList_append, String.toList_append]
  constructor
  · simp [hs, hf, hb]
  · rw [List.getLast?_append, hlast]
    simpa using hr

theorem Entry.OnLines.isLine {e : Entry} (h : e.OnLines) : ∀ l ∈ e.lines, Text.IsLine l.toList := by
  unfold Entry.lines
  simp only [List.forall_mem_cons, List.not_mem_nil, false_implies, implies_true, and_true]
  refine ⟨isLine_between h.key (by decide) (by decide) rfl (by decide),
    isLine_between h.source (by decide) (by decide) rfl (by decide),
    isLine_between h.version (by decide) (by decide) rfl (by decide), ?_⟩
  exact ⟨by decide, by decide⟩

theorem lines_ofLines {ls : List String} (h : ∀ l ∈ ls, Text.IsLine l.toList) :
    Text.lines (Text.ofLines ls).toList = ls.map String.toList := by
  rw [Text.toList_ofLines, Text.charsOf, Text.lines_unlines]
  intro l hl
  obtain ⟨s, hs, rfl⟩ := List.mem_map.mp hl
  exact h s hs

theorem readAll_render {providers : Table Provider} (h : ∀ e ∈ entries providers, e.OnLines) :
    readAll (render providers) = some (entries providers) := by
  unfold render
  generalize entries providers = es at h
  cases es with
  | nil => decide
  | cons e es =>
    have hopening : ∀ l ∈ ["terraform \x7b", "  required_providers \x7b"], Text.IsLine l.toList := by
      simp only [List.forall_mem_cons, List.not_mem_nil, false_implies, implies_true, and_true]
      exact ⟨⟨by decide, by decide⟩, by decide, by decide⟩
    have hclosing : ∀ l ∈ ["  \x7d", "\x7d"], Text.IsLine l.toList := by
      simp only [List.forall_mem_cons, List.not_mem_nil, false_implies, implies_true, and_true]
      exact ⟨⟨by decide, by decide⟩, by decide, by decide⟩
    have hlines : ∀ l ∈ ["terraform \x7b", "  required_providers \x7b"] ++ (e :: es).flatMap Entry.lines
        ++ ["  \x7d", "\x7d"], Text.IsLine l.toList := by
      intro l hl
      rw [List.mem_append, List.mem_append, List.mem_flatMap] at hl
      rcases hl with (hl | ⟨d, hd, hl⟩) | hl
      · exact hopening l hl
      · exact (h d hd).isLine l hl
      · exact hclosing l hl
    simp only
    rw [readAll, lines_ofLines hlines, List.append_assoc, List.map_append]
    exact readEntries_lines (e :: es)

/-! ## Keys -/

theorem keyOf_eq_self_iff (name : String) :
    keyOf name = name ↔ ∃ c ∈ name.toList.head?, Text.isIdentifierStart c = true := by
  unfold keyOf
  split
  · next hname =>
    rw [hname, ← String.toList_inj, hname]
    simp
  · next c rest hname =>
    rw [hname]
    by_cases hc : Text.isIdentifierStart c = true
    · simp [hc]
    · have hlength : String.ofList ('_' :: c :: rest) ≠ name := by
        intro heq
        have hlist := congrArg (·.toList.length) heq
        simp [hname] at hlist
      rw [if_neg hc]
      constructor
      · exact fun heq => absurd heq hlength
      · rintro ⟨d, hd, hstart⟩
        cases hd
        exact absurd hstart hc

theorem mem_keyOf {name : String} {c : Char} (h : c ∈ (keyOf name).toList) : c = '_' ∨ c ∈ name.toList := by
  unfold keyOf at h
  split at h
  · exact Or.inl (List.mem_singleton.mp h)
  · next d rest hname =>
    split at h
    · exact Or.inr h
    · rw [String.toList_ofList, ← hname] at h
      exact List.mem_cons.mp h

theorem onLines_of_isPlain {p : Provider} (h : p.IsPlain) : Entry.OnLines ⟨keyOf p.name, p.source, p.version⟩ := by
  have howner := h.owner.not_mem '\n' (by decide)
  have hname := h.name.not_mem '\n' (by decide)
  refine ⟨?_, ?_, ?_⟩
  · intro hmem
    rcases mem_keyOf hmem with hc | hc
    · exact absurd hc (by decide)
    · exact hname hc
  · simp [Provider.source, howner, hname]
  · intro hmem
    exact absurd (h.version '\n' hmem) (by decide)

theorem readAll_of_accepted {inputs : List String} {providers : Table Provider}
    (h : Arguments.providers inputs = .ok providers) : readAll (render providers) = some (entries providers) := by
  obtain ⟨-, ps, hparsed, hperm⟩ := Arguments.providers_spec h
  apply readAll_render
  intro e he
  obtain ⟨p, hp, rfl⟩ := List.mem_map.mp he
  exact onLines_of_isPlain (Provider.isPlain_of_mem hparsed p (hperm.mem_iff.mp hp))

/-- The entries of a file by their keys, of which the last one counts. -/
def byKey (es : List Entry) : Table (String × String) := Table.ofList (es.map fun e => (e.key, e.source, e.version))

/-- Entries in the order of their sources have keys of their own exactly when each one is found again under its key. -/
theorem nodup_keys_iff {es : List Entry} (h : es.Pairwise fun d e => d.source < e.source) :
    (es.map Entry.key).Nodup ↔ ∀ e ∈ es, (byKey es).find? e.key = some (e.source, e.version) := by
  have hpairs : (es.map fun e => (e.key, e.source, e.version)).Nodup := by
    rw [List.Nodup, List.pairwise_map]
    apply h.imp
    intro d e hlt heq
    simp only [Prod.mk.injEq] at heq
    rw [heq.2.1] at hlt
    exact String.lt_irrefl _ hlt
  have hkeys : es.map Entry.key = (es.map fun e => (e.key, e.source, e.version)).map (·.1) := by
    rw [List.map_map]
    rfl
  rw [hkeys, Table.nodup_names_iff_find? hpairs, List.forall_mem_map]
  rfl

/-- The block of required providers has one entry for each argument, in the order of the sources, under the name of its
provider; an underscore goes before a name that begins with a digit or a dash. The entries have keys of their own
exactly when each provider is found again under its key. -/
theorem pins_every_argument (inputs : List String) (providers : Table Provider)
    (h : Arguments.providers inputs = .ok providers) :
    ∃ ps es, List.Forall₂ (fun input p => Provider.parse input = .ok p) inputs ps ∧
      readAll (render providers) = some es ∧
      es.Perm (ps.map fun p => ⟨keyOf p.name, p.source, p.version⟩) ∧
      es.Pairwise (fun d e => d.source < e.source) ∧
      (∀ p ∈ ps, keyOf p.name = p.name ↔ ∃ c ∈ p.name.toList.head?, Text.isIdentifierStart c = true) ∧
      ((es.map Entry.key).Nodup ↔ ∀ p ∈ ps, (byKey es).find? (keyOf p.name) = some (p.source, p.version)) ∧
      ((∀ p ∈ ps, keyOf p.name = p.name) → ((es.map Entry.key).Nodup ↔ (ps.map Provider.name).Nodup)) := by
  obtain ⟨hsource, ps, hparsed, hperm⟩ := Arguments.providers_spec h
  have hentries : (entries providers).Perm (ps.map fun p => ⟨keyOf p.name, p.source, p.version⟩) := hperm.map _
  have hpairwise : (entries providers).Pairwise fun d e => d.source < e.source := by
    rw [entries, List.pairwise_map]
    exact hsource.pairwise_source
  refine ⟨ps, entries providers, hparsed, readAll_of_accepted h, hentries, hpairwise,
    fun p _ => keyOf_eq_self_iff p.name, ?_, ?_⟩
  · rw [nodup_keys_iff hpairwise]
    simp only [hentries.mem_iff, List.forall_mem_map]
  · intro hlocal
    have hkeyed : ps.map (Entry.key ∘ fun p => ⟨keyOf p.name, p.source, p.version⟩) = ps.map Provider.name :=
      List.map_congr_left hlocal
    have hnames := hentries.map Entry.key
    rw [List.map_map, hkeyed] at hnames
    exact hnames.nodup_iff

def pinnedArguments : List String := ["hashicorp/random:~> 3.5", "Azure/AzAPI"]

def random : Provider := ⟨"hashicorp", "random", "~> 3.5"⟩

def azapi : Provider := ⟨"azure", "azapi", ">= 0"⟩

def pinnedProviders : Table Provider := [("azure/azapi", azapi), ("hashicorp/random", random)]

theorem pins_every_argument_azapi :
    Arguments.providers pinnedArguments = .ok pinnedProviders ∧
      ∃ es, readAll (render pinnedProviders) = some es ∧ (es.map Entry.key).Nodup ∧
        (byKey es).find? "random" = some ("hashicorp/random", "~> 3.5") ∧
        (byKey es).find? "azapi" = some ("azure/azapi", ">= 0") := by
  have hproviders : Arguments.providers pinnedArguments = .ok pinnedProviders := by decide
  obtain ⟨ps, es, hparsed, hread, -, -, hlocal, hfound, hnames⟩ :=
    pins_every_argument pinnedArguments pinnedProviders hproviders
  rcases hparsed with _ | ⟨hfirst, _ | ⟨hsecond, _ | _⟩⟩
  have hrandom : Provider.parse "hashicorp/random:~> 3.5" = .ok random := by decide
  have hazapi : Provider.parse "Azure/AzAPI" = .ok azapi := by decide
  cases hrandom.symm.trans hfirst
  cases hazapi.symm.trans hsecond
  have hkeys : ∀ p ∈ [random, azapi], keyOf p.name = p.name := by decide
  have hnodup : (es.map Entry.key).Nodup := (hnames hkeys).mpr (by decide)
  exact ⟨hproviders, es, hread, hnodup, hfound.mp hnodup random (by decide), hfound.mp hnodup azapi (by decide)⟩

/-- Two providers of one name have one key, and a name that is no key is pinned under another one. -/
theorem pins_may_clash :
    (¬ ∀ (inputs : List String) (providers : Table Provider) (es : List Entry),
      Arguments.providers inputs = .ok providers → readAll (render providers) = some es →
      (es.map Entry.key).Nodup) ∧
    (¬ ∀ (inputs : List String) (providers : Table Provider) (es : List Entry),
      Arguments.providers inputs = .ok providers → readAll (render providers) = some es →
      es.map Entry.key = providers.values.map Provider.name) := by
  constructor
  · intro h
    have hproviders : Arguments.providers ["hashicorp/aws", "other/aws"]
        = .ok [("hashicorp/aws", ⟨"hashicorp", "aws", ">= 0"⟩), ("other/aws", ⟨"other", "aws", ">= 0"⟩)] := by decide
    exact absurd (h _ _ _ hproviders (readAll_of_accepted hproviders)) (by decide)
  · intro h
    have hproviders : Arguments.providers ["x/3-d"] = .ok [("x/3-d", ⟨"x", "3-d", ">= 0"⟩)] := by decide
    exact absurd (h _ _ _ hproviders (readAll_of_accepted hproviders)) (by decide)

end RequiredProviders

end ModuleScaffold
