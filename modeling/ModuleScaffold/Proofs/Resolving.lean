import ModuleScaffold.Proofs.Provider.Canonical
import ModuleScaffold.Proofs.Text.Pieces

/-! # Resolving resource arguments

A resource argument is resolved on its own, by the providers alone; only that a second one of single mode is refused looks
at the others. Main statement: which lists of arguments are accepted, what each argument becomes, and where the first one
stands that is refused. -/

namespace ModuleScaffold

/-! ## Names at the front of a type -/

namespace Text

theorem byteLength_append (s t : List Char) : byteLength (s ++ t) = byteLength s + byteLength t := by
  induction s with
  | nil => simp [byteLength]
  | cons c s ih => rw [List.cons_append, byteLength, byteLength, ih, Nat.add_assoc]

theorem length_le_byteLength (s : List Char) : s.length ≤ byteLength s := by
  induction s with
  | nil => exact Nat.le_refl _
  | cons c s ih =>
    have hwidth : 0 < width c := Char.utf8Size_pos c
    rw [List.length_cons, byteLength]
    omega

theorem beginsWith_iff {word s : List Char} : beginsWith word s = true ↔ word <+: s := by
  rw [beginsWith, Option.isSome_iff_exists]
  simp only [after?_eq_some_iff]
  exact exists_congr fun rest => eq_comm

/-- Of two beginnings of one text, the one with fewer bytes is a beginning of the other. -/
theorem prefix_of_byteLength_le {s t u : List Char} (hs : s <+: u) (ht : t <+: u) (h : byteLength s ≤ byteLength t) :
    s <+: t := by
  rcases List.prefix_or_prefix_of_prefix hs ht with hst | ⟨more, rfl⟩
  · exact hst
  · rw [byteLength_append] at h
    have hmore : more = [] := List.eq_nil_of_length_eq_zero (by have := length_le_byteLength more; omega)
    subst hmore
    simp

end Text

namespace Request

/-! ## What an argument asks for -/

/-- The words that name a mode. -/
def modeWords : Mode → List String
  | .single => ["single"]
  | .multiple => ["multiple", "collection"]

/-- An argument is cut at its first colon; without one the word of its mode is `multiple`. -/
inductive Cut : List Char → List Char → List Char → Prop
  | bare {type : List Char} (h : ':' ∉ type) : Cut type type "multiple".toList
  | marked {type word : List Char} (h : ':' ∉ type) : Cut (type ++ ':' :: word) type word

/-- An argument asks for a type in a mode: what is left of its two parts without the blanks around them. -/
def Asks (input type : String) (mode : Mode) : Prop :=
  ∃ front back, Cut input.toList front back ∧ type = String.ofList (Text.trim front) ∧ type ≠ "" ∧
    String.ofList (Text.trim back) ∈ modeWords mode

/-- A type belongs to the provider with the longest name that it begins with, and of providers of one name to the one with
the greatest source. -/
structure Owns (providers : Table Provider) (type : String) (p : Provider) : Prop where
  known : p ∈ providers.values
  begins : p.name.toList <+: type.toList
  longest : ∀ q ∈ providers.values, q.name.toList <+: type.toList →
    q.name.length < p.name.length ∨ (q.name = p.name ∧ q.source ≤ p.source)

/-- What a single argument becomes. -/
structure Resolves (providers : Table Provider) (input : String) (r : Request) : Prop where
  asks : Asks input r.type r.mode
  owns : Owns providers r.type r.provider

theorem splitArgument_eq_iff {input type word : String} : splitArgument input = (type, word) ↔
    ∃ front back, Cut input.toList front back ∧ type = String.ofList (Text.trim front) ∧
      word = String.ofList (Text.trim back) := by
  have hmultiple : String.ofList (Text.trim "multiple".toList) = "multiple" := by decide
  unfold splitArgument
  constructor
  · intro h
    cases hsplit : Text.splitAt? ':' input.toList with
    | none =>
      rw [hsplit] at h
      obtain ⟨rfl, rfl⟩ := Prod.mk.inj h
      exact ⟨_, _, .bare (Text.splitAt?_eq_none_iff.mp hsplit), rfl, hmultiple.symm⟩
    | some parts =>
      obtain ⟨front, back⟩ := parts
      rw [hsplit] at h
      obtain ⟨rfl, rfl⟩ := Prod.mk.inj h
      obtain ⟨hinput, hcolon⟩ := Text.splitAt?_eq_some hsplit
      rw [hinput]
      exact ⟨_, _, .marked hcolon, rfl, rfl⟩
  · rintro ⟨front, back, hcut, rfl, rfl⟩
    generalize input.toList = s at hcut
    cases hcut with
    | bare h => rw [Text.splitAt?_eq_none_iff.mpr h, hmultiple]
    | marked h => rw [Text.splitAt?_append ':' _ _ h]

theorem modeOf?_eq_some_iff {word : String} {mode : Mode} : modeOf? word = some mode ↔ word ∈ modeWords mode := by
  unfold modeOf?
  cases mode <;> by_cases hs : word = "single" <;> by_cases hm : word = "multiple" <;>
    by_cases hc : word = "collection" <;> simp_all [modeWords]

theorem asks_iff {input type : String} {mode : Mode} : Asks input type mode ↔
    ∃ word, splitArgument input = (type, word) ∧ type ≠ "" ∧ modeOf? word = some mode := by
  simp only [splitArgument_eq_iff, modeOf?_eq_some_iff]
  constructor
  · rintro ⟨front, back, hcut, htype, hne, hmode⟩
    exact ⟨_, ⟨front, back, hcut, htype, rfl⟩, hne, hmode⟩
  · rintro ⟨_, ⟨front, back, hcut, htype, rfl⟩, hne, hmode⟩
    exact ⟨front, back, hcut, htype, hne, hmode⟩

theorem Asks.unique {input type type' : String} {mode mode' : Mode} (h : Asks input type mode)
    (h' : Asks input type' mode') : type = type' ∧ mode = mode' := by
  obtain ⟨word, hsplit, -, hmode⟩ := asks_iff.mp h
  obtain ⟨word', hsplit', -, hmode'⟩ := asks_iff.mp h'
  obtain ⟨rfl, rfl⟩ := Prod.mk.inj (hsplit.symm.trans hsplit')
  exact ⟨rfl, Option.some.inj (hmode.symm.trans hmode')⟩

/-! ## The provider of a type -/

/-- The one of some providers whose name has the most bytes, and of those the one with the greatest source. -/
structure Best (ps : List Provider) (p : Provider) : Prop where
  mem : p ∈ ps
  most : ∀ q ∈ ps, Text.byteLength q.name.toList < Text.byteLength p.name.toList ∨
    (Text.byteLength q.name.toList = Text.byteLength p.name.toList ∧ q.source ≤ p.source)

theorem Best.step {seen : List Provider} {b p : Provider} (h : Best seen b) (hp : ∀ q ∈ seen, q.source < p.source) :
    ∃ best, longer (some b) p = some best ∧ Best (seen ++ [p]) best := by
  have hpself : Text.byteLength p.name.toList = Text.byteLength p.name.toList ∧ p.source ≤ p.source :=
    ⟨rfl, String.le_refl _⟩
  by_cases hle : Text.byteLength b.name.toList ≤ Text.byteLength p.name.toList
  · refine ⟨p, if_pos hle, by simp, ?_⟩
    intro q hq
    rcases List.mem_append.mp hq with hq | hq
    · rcases h.most q hq with hlt | ⟨heq, -⟩
      · exact .inl (Nat.lt_of_lt_of_le hlt hle)
      · rcases Nat.lt_or_eq_of_le (heq ▸ hle) with hlt | heq
        · exact .inl hlt
        · exact .inr ⟨heq, String.not_lt.mp (String.lt_asymm (hp q hq))⟩
    · rw [List.mem_singleton.mp hq]
      exact .inr hpself
  · refine ⟨b, if_neg hle, List.mem_append_left _ h.mem, ?_⟩
    intro q hq
    rcases List.mem_append.mp hq with hq | hq
    · exact h.most q hq
    · rw [List.mem_singleton.mp hq]
      exact .inl (Nat.lt_of_not_le hle)

theorem Best.foldl_longer {seen ps : List Provider} {b : Provider} (h : Best seen b)
    (hsources : (seen ++ ps).Pairwise fun p q => p.source < q.source) :
    ∃ best, ps.foldl longer (some b) = some best ∧ Best (seen ++ ps) best := by
  induction ps generalizing seen b with
  | nil => exact ⟨b, rfl, by rwa [List.append_nil]⟩
  | cons p ps ih =>
    have hp : ∀ q ∈ seen, q.source < p.source := fun q hq =>
      (List.pairwise_append.mp hsources).2.2 q hq p List.mem_cons_self
    obtain ⟨best, hbest, hstep⟩ := h.step hp
    rw [List.append_cons] at hsources ⊢
    rw [List.foldl_cons, hbest]
    exact ih hstep hsources

theorem foldl_longer {ps : List Provider} (hsources : ps.Pairwise fun p q => p.source < q.source) :
    (ps = [] ∧ ps.foldl longer none = none) ∨ ∃ best, ps.foldl longer none = some best ∧ Best ps best := by
  cases ps with
  | nil => exact .inl ⟨rfl, rfl⟩
  | cons p ps =>
    have hfirst : Best [p] p := ⟨List.mem_singleton_self p, fun q hq => by
      rw [List.mem_singleton.mp hq]
      exact .inr ⟨rfl, String.le_refl _⟩⟩
    exact .inr (hfirst.foldl_longer hsources)

/-- The providers that a type may belong to. -/
def candidates (providers : Table Provider) (type : String) : List Provider :=
  providers.values.filter fun p => Text.beginsWith p.name.toList type.toList

theorem mem_candidates {providers : Table Provider} {type : String} {p : Provider} :
    p ∈ candidates providers type ↔ p ∈ providers.values ∧ p.name.toList <+: type.toList := by
  rw [candidates, List.mem_filter, Text.beginsWith_iff]

theorem owns_of_best {providers : Table Provider} {type : String} {p : Provider}
    (h : Best (candidates providers type) p) : Owns providers type p := by
  obtain ⟨hknown, hbegins⟩ := mem_candidates.mp h.mem
  refine ⟨hknown, hbegins, ?_⟩
  intro q hq hqbegins
  have hmost := h.most q (mem_candidates.mpr ⟨hq, hqbegins⟩)
  have hbegin : q.name.toList <+: p.name.toList := Text.prefix_of_byteLength_le hqbegins hbegins (by omega)
  have hlength := hbegin.length_le
  rcases Nat.lt_or_eq_of_le hlength with hlt | heq
  · rw [String.length_toList, String.length_toList] at hlt
    exact .inl hlt
  · have hname : q.name = p.name := String.toList_inj.mp (hbegin.eq_of_length heq)
    rcases hmost with hlt | ⟨-, hsource⟩
    · rw [hname] at hlt
      exact absurd hlt (Nat.lt_irrefl _)
    · exact .inr ⟨hname, hsource⟩

variable {providers : Table Provider}

theorem Owns.unique (hs : Arguments.IsBySource providers) {type : String} {p q : Provider} (hp : Owns providers type p)
    (hq : Owns providers type q) : p = q := by
  have hsource : p.source = q.source := by
    rcases hp.longest q hq.known hq.begins with hlt | ⟨-, hle⟩
    · rcases hq.longest p hp.known hp.begins with hgt | ⟨hname, -⟩
      · omega
      · rw [hname] at hlt
        omega
    · rcases hq.longest p hp.known hp.begins with hgt | ⟨-, hge⟩
      · rcases hp.longest q hq.known hq.begins with hlt | ⟨hname, -⟩
        · omega
        · rw [hname] at hgt
          omega
      · exact String.le_antisymm hge hle
  obtain ⟨d, hd, rfl⟩ := List.mem_map.mp hp.known
  obtain ⟨e, he, rfl⟩ := List.mem_map.mp hq.known
  have hname : d.1 = e.1 := by rw [hs.source d hd, hs.source e he, hsource]
  have hsame : (d.1, e.2) ∈ providers := by
    rw [hname]
    exact he
  exact hs.sorted.eq_of_mem hd hsame

theorem providerOf?_eq_some_iff (hs : Arguments.IsBySource providers) {type : String} {p : Provider} :
    providerOf? providers type = some p ↔ Owns providers type p := by
  have hsources := hs.pairwise_source.filter fun p => Text.beginsWith p.name.toList type.toList
  change (candidates providers type).foldl longer none = some p ↔ _
  rcases foldl_longer hsources with ⟨hnil, hnone⟩ | ⟨best, hsome, hbest⟩
  · constructor
    · intro h
      have hnever : none = some p := hnone.symm.trans h
      cases hnever
    · intro h
      have hmem : p ∈ candidates providers type := mem_candidates.mpr ⟨h.known, h.begins⟩
      rw [show candidates providers type = [] from hnil] at hmem
      cases hmem
  · constructor
    · intro h
      obtain rfl := Option.some.inj (hsome.symm.trans h)
      exact owns_of_best hbest
    · intro h
      rw [h.unique hs (owns_of_best hbest)]
      exact hsome

theorem exists_owns_iff (hs : Arguments.IsBySource providers) {type : String} :
    (∃ p, Owns providers type p) ↔ ∃ p ∈ providers.values, p.name.toList <+: type.toList := by
  constructor
  · exact fun ⟨p, h⟩ => ⟨p, h.known, h.begins⟩
  · rintro ⟨p, hp, hbegins⟩
    have hsources := hs.pairwise_source.filter fun p => Text.beginsWith p.name.toList type.toList
    rcases foldl_longer hsources with ⟨hnil, -⟩ | ⟨best, -, hbest⟩
    · have hmem : p ∈ candidates providers type := mem_candidates.mpr ⟨hp, hbegins⟩
      rw [show candidates providers type = [] from hnil] at hmem
      cases hmem
    · exact ⟨best, owns_of_best hbest⟩

/-! ## One argument -/

theorem parse_eq_ok_iff (hs : Arguments.IsBySource providers) {taken : Bool} {input : String} {r : Request} :
    parse providers taken input = .ok r ↔ Resolves providers input r ∧ ¬(taken = true ∧ r.mode = .single) := by
  unfold parse
  constructor
  · intro h
    cases hsplit : splitArgument input with
    | mk type word =>
      simp only [hsplit] at h
      split at h
      · cases h
      next hne =>
      split at h
      · cases h
      next mode hmode =>
      split at h
      · cases h
      next hfree =>
      split at h
      · cases h
      next provider hprovider =>
      cases h
      refine ⟨⟨asks_iff.mpr ⟨word, hsplit, hne, hmode⟩, (providerOf?_eq_some_iff hs).mp hprovider⟩, ?_⟩
      rintro ⟨rfl, hsingle⟩
      exact hfree (by simp [show mode = .single from hsingle])
  · rintro ⟨⟨hasks, howns⟩, hfree⟩
    obtain ⟨word, hsplit, hne, hmode⟩ := asks_iff.mp hasks
    have hprovider := (providerOf?_eq_some_iff hs).mpr howns
    have hallowed : ¬(decide (r.mode = .single) && taken) = true := by
      simp only [Bool.and_eq_true, decide_eq_true_eq]
      exact fun ⟨hsingle, htaken⟩ => hfree ⟨htaken, hsingle⟩
    simp only [hsplit, hne, hmode, hprovider, hallowed, if_false, Bool.false_eq_true]

end Request

namespace Arguments

open Request (Asks Resolves)

variable {providers : Table Provider} {taken : Bool} {inputs : List String} {rs : List Request}

/-! ## Lists of arguments -/

/-- An argument asks for a single resource. -/
def AsksSingle (input : String) : Prop := ∃ type, Asks input type .single

/-- Every argument asks for a type in a mode, and some provider's name stands at the front of the type; at most one of
them asks for a single resource. -/
structure Acceptable (providers : Table Provider) (inputs : List String) : Prop where
  each : ∀ input ∈ inputs, ∃ type mode, Asks input type mode ∧ ∃ p ∈ providers.values, p.name.toList <+: type.toList
  oneSingle : inputs.Pairwise fun a b => ¬(AsksSingle a ∧ AsksSingle b)

theorem requestsFrom_eq_ok_iff (hs : IsBySource providers) : requestsFrom providers taken inputs = .ok rs ↔
    List.Forall₂ (Resolves providers) inputs rs ∧ (taken = true → ∀ r ∈ rs, r.mode ≠ .single) ∧
      rs.Pairwise fun a b => ¬(a.mode = .single ∧ b.mode = .single) := by
  induction inputs generalizing taken rs with
  | nil =>
    rw [requestsFrom, List.forall₂_nil_left_iff]
    constructor
    · intro h
      cases h
      simp
    · rintro ⟨rfl, -⟩
      rfl
  | cons input inputs ih =>
    rw [requestsFrom]
    constructor
    · intro h
      split at h
      · cases h
      next r hr =>
      split at h
      · next more hmore =>
        cases h
        obtain ⟨hresolves, hfree⟩ := (Request.parse_eq_ok_iff hs).mp hr
        obtain ⟨hrest, hlater, hpairs⟩ := ih.mp hmore
        simp only [Bool.or_eq_true, beq_iff_eq] at hlater
        refine ⟨.cons hresolves hrest, ?_, List.pairwise_cons.mpr ⟨?_, hpairs⟩⟩
        · intro htaken
          exact List.forall_mem_cons.mpr ⟨fun hsingle => hfree ⟨htaken, hsingle⟩, hlater (.inl htaken)⟩
        · rintro r' hr' ⟨hsingle, hsingle'⟩
          exact hlater (.inr hsingle) r' hr' hsingle'
      · cases h
    · rintro ⟨hall, hlater, hpairs⟩
      obtain ⟨r, more, hresolves, hrest, rfl⟩ := List.forall₂_cons_left_iff.mp hall
      obtain ⟨hfirst, hpairs⟩ := List.pairwise_cons.mp hpairs
      have hr : Request.parse providers taken input = .ok r :=
        (Request.parse_eq_ok_iff hs).mpr ⟨hresolves, fun ⟨htaken, hsingle⟩ => hlater htaken r List.mem_cons_self hsingle⟩
      have hmore : requestsFrom providers (taken || r.mode == .single) inputs = .ok more := by
        refine ih.mpr ⟨hrest, ?_, hpairs⟩
        simp only [Bool.or_eq_true, beq_iff_eq]
        rintro (htaken | hsingle) r' hr' hsingle'
        · exact hlater htaken r' (List.mem_cons_of_mem _ hr') hsingle'
        · exact hfirst r' hr' ⟨hsingle, hsingle'⟩
      simp only [hr, hmore]

theorem requests_eq_ok_iff (hs : IsBySource providers) : requests providers inputs = .ok rs ↔
    List.Forall₂ (Resolves providers) inputs rs ∧ rs.Pairwise fun a b => ¬(a.mode = .single ∧ b.mode = .single) := by
  rw [requests, requestsFrom_eq_ok_iff hs]
  simp

theorem asksSingle_iff {input : String} {r : Request} (h : Resolves providers input r) :
    AsksSingle input ↔ r.mode = .single := by
  constructor
  · exact fun ⟨_, hsingle⟩ => (h.asks.unique hsingle).2
  · intro hsingle
    have hasks := h.asks
    rw [hsingle] at hasks
    exact ⟨_, hasks⟩

theorem pairwise_single_iff (h : List.Forall₂ (Resolves providers) inputs rs) :
    (inputs.Pairwise fun a b => ¬(AsksSingle a ∧ AsksSingle b)) ↔
      rs.Pairwise fun a b => ¬(a.mode = .single ∧ b.mode = .single) := by
  induction h with
  | nil => simp
  | cons hfirst hrest ih =>
    rw [List.pairwise_cons, List.pairwise_cons, ih, asksSingle_iff hfirst]
    refine and_congr_left fun _ => ⟨fun hall r hr hboth => ?_, fun hall input hinput hboth => ?_⟩
    · obtain ⟨input, hinput, hresolves⟩ := Paired.exists_of_mem_right hrest hr
      exact hall input hinput ⟨hboth.1, (asksSingle_iff hresolves).mpr hboth.2⟩
    · obtain ⟨r, hr, hresolves⟩ := Paired.exists_of_mem_left hrest hinput
      exact hall r hr ⟨hboth.1, (asksSingle_iff hresolves).mp hboth.2⟩

theorem exists_requests_iff (hs : IsBySource providers) :
    (∃ rs, requests providers inputs = .ok rs) ↔ Acceptable providers inputs := by
  simp only [requests_eq_ok_iff hs]
  constructor
  · rintro ⟨rs, hall, hpairs⟩
    refine ⟨fun input hinput => ?_, (pairwise_single_iff hall).mpr hpairs⟩
    obtain ⟨r, -, hr⟩ := Paired.exists_of_mem_left hall hinput
    exact ⟨r.type, r.mode, hr.asks, (Request.exists_owns_iff hs).mp ⟨r.provider, hr.owns⟩⟩
  · rintro ⟨heach, hpairs⟩
    obtain ⟨rs, hall⟩ : ∃ rs, List.Forall₂ (Resolves providers) inputs rs := by
      apply Paired.exists_of_forall
      intro input hinput
      obtain ⟨type, mode, hasks, hprovider⟩ := heach input hinput
      obtain ⟨p, howns⟩ := (Request.exists_owns_iff hs).mpr hprovider
      exact ⟨⟨type, mode, p⟩, hasks, howns⟩
    exact ⟨rs, hall, (pairwise_single_iff hall).mp hpairs⟩

/-- The reading ends at the first argument with which the arguments up to it are no longer accepted. -/
theorem requestsFrom_eq_error {e : Error} (h : requestsFrom providers taken inputs = .error e) :
    ∃ before input after fault, inputs = before ++ input :: after ∧ e = .invalidResource input fault ∧
      (∃ rs, requestsFrom providers taken before = .ok rs) ∧
      ¬∃ rs, requestsFrom providers taken (before ++ [input]) = .ok rs := by
  induction inputs generalizing taken with
  | nil => cases h
  | cons input inputs ih =>
    rw [requestsFrom] at h
    cases hr : Request.parse providers taken input with
    | error f =>
      rw [hr] at h
      refine ⟨[], input, inputs, f, rfl, (Except.error.inj h).symm, ⟨[], rfl⟩, ?_⟩
      simp [requestsFrom, hr]
    | ok r =>
      simp only [hr] at h
      split at h
      · cases h
      next e' he =>
      obtain rfl := Except.error.inj h
      obtain ⟨before, culprit, after, fault, rfl, rfl, ⟨rs, hrs⟩, hnone⟩ := ih he
      refine ⟨input :: before, culprit, after, fault, rfl, rfl, ⟨r :: rs, by simp [requestsFrom, hr, hrs]⟩, ?_⟩
      rintro ⟨all, hall⟩
      rw [List.cons_append, requestsFrom, hr] at hall
      simp only at hall
      split at hall
      · next more hmore => exact hnone ⟨more, hmore⟩
      · cases hall

theorem requests_of_perm (hs : IsBySource providers) {others : List String} (h : inputs.Perm others)
    (hrequests : requests providers inputs = .ok rs) :
    ∃ rs', requests providers others = .ok rs' ∧ (inputs.zip rs).Perm (others.zip rs') := by
  have hacceptable := (exists_requests_iff hs).mp ⟨rs, hrequests⟩
  obtain ⟨hall, -⟩ := (requests_eq_ok_iff hs).mp hrequests
  obtain ⟨rs', hall', hzip⟩ := Paired.exists_perm_zip h hall
  have hpairs : others.Pairwise fun a b => ¬(AsksSingle a ∧ AsksSingle b) :=
    hacceptable.oneSingle.perm h fun hab hba => hab ⟨hba.2, hba.1⟩
  exact ⟨rs', (requests_eq_ok_iff hs).mpr ⟨hall', (pairwise_single_iff hall').mp hpairs⟩, hzip⟩

/-- Resource arguments are accepted just when each of them can be resolved and at most one asks for a single resource, and
each becomes what it asks for, with the provider that owns its type. The order of the arguments, and that of the provider
arguments, does not matter; the first argument with which this no longer holds is the one that is refused. -/
theorem requests_are_resolved_apart (arguments : List String) (providers : Table Provider)
    (h : Arguments.providers arguments = .ok providers) (inputs : List String) :
    ((∃ rs, requests providers inputs = .ok rs) ↔ Acceptable providers inputs) ∧
    (∀ rs, requests providers inputs = .ok rs → List.Forall₂ (Resolves providers) inputs rs) ∧
    (∀ others, inputs.Perm others →
      ((∃ rs, requests providers others = .ok rs) ↔ ∃ rs, requests providers inputs = .ok rs) ∧
      ∀ rs rs', requests providers inputs = .ok rs → requests providers others = .ok rs' →
        (inputs.zip rs).Perm (others.zip rs')) ∧
    (∀ others, arguments.Perm others → ∃ providers', Arguments.providers others = .ok providers' ∧
      requests providers' inputs = requests providers inputs) ∧
    ∀ e, requests providers inputs = .error e → ∃ before input after fault, inputs = before ++ input :: after ∧
      e = .invalidResource input fault ∧ Acceptable providers before ∧ ¬Acceptable providers (before ++ [input]) := by
  have hs : IsBySource providers := (providers_spec h).1
  refine ⟨exists_requests_iff hs, fun rs hrs => ((requests_eq_ok_iff hs).mp hrs).1, ?_, ?_, ?_⟩
  · intro others hperm
    refine ⟨⟨fun ⟨rs, hrs⟩ => ?_, fun ⟨rs, hrs⟩ => ?_⟩, fun rs rs' hrs hrs' => ?_⟩
    · obtain ⟨rs', hrs', -⟩ := requests_of_perm hs hperm.symm hrs
      exact ⟨rs', hrs'⟩
    · obtain ⟨rs', hrs', -⟩ := requests_of_perm hs hperm hrs
      exact ⟨rs', hrs'⟩
    · obtain ⟨found, hfound, hzip⟩ := requests_of_perm hs hperm hrs
      rwa [Except.ok.inj (hfound.symm.trans hrs')] at hzip
  · exact fun others hperm => ⟨providers, providers_of_perm hperm h, rfl⟩
  · intro e he
    obtain ⟨before, input, after, fault, hinputs, herror, hbefore, hnone⟩ := requestsFrom_eq_error he
    exact ⟨before, input, after, fault, hinputs, herror, (exists_requests_iff hs).mp hbefore,
      fun hacceptable => hnone ((exists_requests_iff hs).mpr hacceptable)⟩

def cloudArguments : List String := ["other/aws", "hashicorp/awscc", "hashicorp/aws"]

def awscc : Provider := ⟨"hashicorp", "awscc", ">= 0"⟩

def otherAws : Provider := ⟨"other", "aws", ">= 0"⟩

def cloudProviders : Table Provider :=
  [("hashicorp/aws", ⟨"hashicorp", "aws", ">= 0"⟩), ("hashicorp/awscc", awscc), ("other/aws", otherAws)]

theorem requests_are_resolved_apart_clouds : Arguments.providers cloudArguments = .ok cloudProviders ∧
    Acceptable cloudProviders ["awscc_bucket:single", " aws_vpc"] ∧
    Resolves cloudProviders "awscc_bucket:single" ⟨"awscc_bucket", .single, awscc⟩ ∧
    Resolves cloudProviders " aws_vpc" ⟨"aws_vpc", .multiple, otherAws⟩ ∧
    ¬Acceptable cloudProviders ["aws_vpc:single", "aws_subnet: single"] := by
  have hproviders : Arguments.providers cloudArguments = .ok cloudProviders := by decide
  have hrequests : requests cloudProviders ["awscc_bucket:single", " aws_vpc"]
      = .ok [⟨"awscc_bucket", .single, awscc⟩, ⟨"aws_vpc", .multiple, otherAws⟩] := by decide
  have hrefused : requests cloudProviders ["aws_vpc:single", "aws_subnet: single"]
      = .error (.invalidResource "aws_subnet: single" .secondSingle) := by decide
  obtain ⟨haccepted, hresolved, -⟩ :=
    requests_are_resolved_apart cloudArguments cloudProviders hproviders ["awscc_bucket:single", " aws_vpc"]
  obtain ⟨hcollision, -⟩ :=
    requests_are_resolved_apart cloudArguments cloudProviders hproviders ["aws_vpc:single", "aws_subnet: single"]
  rcases hresolved _ hrequests with _ | ⟨hbucket, _ | ⟨hvpc, _⟩⟩
  refine ⟨hproviders, haccepted.mp ⟨_, hrequests⟩, hbucket, hvpc, fun hacceptable => ?_⟩
  obtain ⟨rs, hrs⟩ := hcollision.mpr hacceptable
  rw [hrefused] at hrs
  cases hrs

end Arguments
end ModuleScaffold
