import Mathlib.Data.List.Nodup
import Mathlib.Data.List.Perm.Basic
import Mathlib.Logic.Relation
import ModuleScaffold.Proofs.Json.Core

/-! # Edits that change nothing

Members in another order, members that a record does not have, and members that are spelled out with the default. Main
statement: edits at any depth leave the core of what a tree says as it is, `meaning?_eq_of_edits`. -/

namespace ModuleScaffold.Json

variable {ρ : Type}

/-- The members of a record have names of their own. -/
def Vocabulary.IsDistinct (v : Vocabulary ρ) : Prop := ∀ name, ((v.members name).map (·.1)).Nodup

theorem memberShape?_of_mem {fields : List (String × Shape ρ)} (hn : (fields.map (·.1)).Nodup) {field : String × Shape ρ}
    (h : field ∈ fields) : memberShape? field.1 fields = some field.2 := by
  induction fields with
  | nil => cases h
  | cons first fields ih =>
    obtain ⟨key, shape⟩ := first
    obtain ⟨hnew, hn⟩ := List.nodup_cons.mp hn
    rw [memberShape?]
    rcases List.mem_cons.mp h with rfl | h
    · exact if_pos rfl
    · rw [if_neg (fun heq => hnew (List.mem_map.mpr ⟨field, h, heq.symm⟩)), ih hn h]

namespace Tree

/-! ## Edits -/

section Definitions

variable (v : Vocabulary ρ) (words : List String)

/-- A tree that says what an absent member means. -/
inductive IsDefault : Shape ρ → Tree → Prop
  | text {l : Literal} (h : l.value? = some "") : IsDefault .text (string l)
  | flag : IsDefault .flag (bool false)
  | count {n : Numeral} (h : n.value? = some (.whole 0)) : IsDefault .count (number n)
  | word {l : Literal} {w : String} (h : l.value? = some w) (hw : w ∉ words) : IsDefault .word (string l)
  /-- A word may also be written as an object. -/
  | key {l : Literal} {w : String} (h : l.value? = some w) (hw : w ∉ words) : IsDefault .word (object [(l, null)])
  | absent {inner : Shape ρ} : IsDefault (.optional inner) null
  | table {value : Shape ρ} : IsDefault (.table value) (object [])
  | record {name : ρ} : IsDefault (.record name) (object [])

/-- The second tree says the same as the first one, at some place of it in other words. -/
inductive Edit : Shape ρ → Tree → Tree → Prop
  /-- The members of an object stand in another order. -/
  | permute {shape : Shape ρ} {ms ns : List (Literal × Tree)} (hn : (ms.map (·.1.value?)).Nodup) (h : ms.Perm ns) :
    Edit shape (object ms) (object ns)
  /-- There is a member that the record does not have. -/
  | unknown {shape : Shape ρ} {name : ρ} {front back : List (Literal × Tree)} {l : Literal} {key : String} {t : Tree}
    (hshape : shape.plain = .record name) (hl : l.value? = some key) (hkey : memberShape? key (v.members name) = none) :
    Edit shape (object (front ++ back)) (object (front ++ (l, t) :: back))
  /-- A member is spelled out that is the default. -/
  | spelled {shape inner : Shape ρ} {name : ρ} {front back : List (Literal × Tree)} {l : Literal} {key : String} {t : Tree}
    (hshape : shape.plain = .record name) (hl : l.value? = some key)
    (hkey : memberShape? key (v.members name) = some inner) (hnew : some key ∉ (front ++ back).map (·.1.value?))
    (ht : IsDefault words inner t) : Edit shape (object (front ++ back)) (object (front ++ (l, t) :: back))
  /-- The value of a member is edited. -/
  | member {shape inner : Shape ρ} {front back : List (Literal × Tree)} {l : Literal} {key : String} {t u : Tree}
    (hl : l.value? = some key) (hkey : shape.member? v key = some inner) (h : Edit inner t u) :
    Edit shape (object (front ++ (l, t) :: back)) (object (front ++ (l, u) :: back))
  /-- An element of a list is edited. -/
  | element {shape inner : Shape ρ} {front back : List Tree} {t u : Tree}
    (hplace : shape.element? v front.length = some inner) (h : Edit inner t u) :
    Edit shape (array (front ++ t :: back)) (array (front ++ u :: back))

end Definitions

variable {v : Vocabulary ρ} {words : List String} {shape inner value : Shape ρ} {name : ρ}
  {fields : List (String × Shape ρ)} {front back ms ns : List (Literal × Tree)} {l : Literal} {key : String} {t u : Tree}
  {js : List (String × Json)} {j : Json} {es : List Tree}

theorem IsDefault.read? (h : IsDefault words shape t) :
    ∃ j, t.read? v shape = some j ∧ isDefault words shape (core v words shape j) = true := by
  cases h with
  | text h => exact ⟨_, congrArg (Option.map Json.string) h, rfl⟩
  | flag => exact ⟨_, rfl, rfl⟩
  | count h => exact ⟨.number (.whole 0), by simp [Tree.read?, Shape.plain, h, countOf?], by simp [core, isDefault]⟩
  | word h hw => exact ⟨_, congrArg (Option.map Json.string) h, by simp [core, isDefault, hw]⟩
  | key h hw => exact ⟨_, congrArg (Option.map Json.string) h, by simp [core, isDefault, hw]⟩
  | absent => exact ⟨_, rfl, rfl⟩
  | table => exact ⟨_, rfl, rfl⟩
  | @record name =>
    refine ⟨.object [], rfl, ?_⟩
    rw [core, coreEach, arranged_record rfl]
    simp [isDefault, kept?]

/-! ## Members in another order -/

theorem readEach?_eq_some_iff : readEach? v value ms = some js ↔
    List.Forall₂ (fun m j => m.1.value? = some j.1 ∧ m.2.read? v value = some j.2) ms js := by
  induction ms generalizing js with
  | nil => simp [readEach?, eq_comm]
  | cons m ms ih =>
    obtain ⟨l, t⟩ := m
    rw [readEach?, List.forall₂_cons_left_iff]
    simp only [Option.bind_eq_some_iff, Option.map_eq_some_iff, ih]
    constructor
    · rintro ⟨key, hl, j, ht, js, hjs, rfl⟩
      exact ⟨(key, j), js, ⟨hl, ht⟩, hjs, rfl⟩
    · rintro ⟨⟨key, j⟩, js, ⟨hl, ht⟩, hjs, rfl⟩
      exact ⟨key, hl, j, ht, js, hjs, rfl⟩

/-- Whether a member is one that the record has. -/
def isKnown (fields : List (String × Shape ρ)) (m : Literal × Tree) : Bool := (known? fields m).isSome

theorem readMembers?_eq_some_iff : readMembers? v fields ms = some js ↔
    (∀ m ∈ ms, m.1.value? ≠ none) ∧ (js.map (·.1)).Nodup ∧
      List.Forall₂ (fun m j => m.1.value? = some j.1 ∧ ∃ shape, memberShape? j.1 fields = some shape ∧
        m.2.read? v shape = some j.2) (ms.filter (isKnown fields)) js := by
  induction ms generalizing js with
  | nil =>
    simp only [readMembers?, List.filter_nil, List.forall₂_nil_left_iff]
    constructor
    · intro h
      obtain rfl := Option.some.inj h
      exact ⟨by simp, by simp, rfl⟩
    · rintro ⟨-, -, rfl⟩
      rfl
  | cons m ms ih =>
    obtain ⟨l, t⟩ := m
    rw [List.forall_mem_cons]
    cases hl : l.value? with
    | none => simp [readMembers?, hl]
    | some key =>
      cases hkey : memberShape? key fields with
      | none =>
        rw [readMembers?_unknown hl hkey, ih, List.filter_cons_of_neg (by simp [isKnown, known?, hl, hkey])]
        simp
      | some shape =>
        rw [readMembers?_known hl hkey, List.filter_cons_of_pos (by simp [isKnown, known?, hl, hkey]),
          List.forall₂_cons_left_iff]
        simp only [Option.bind_eq_some_iff, ih]
        constructor
        · rintro ⟨j, ht, more, ⟨hall, hnodup, hmore⟩, hjs⟩
          split at hjs
          · cases hjs
          · next hnew =>
            obtain rfl := Option.some.inj hjs
            exact ⟨⟨by simp, hall⟩, List.nodup_cons.mpr ⟨hnew, hnodup⟩, (key, j), more, ⟨hl, shape, hkey, ht⟩, hmore, rfl⟩
        · rintro ⟨⟨-, hall⟩, hnodup, ⟨key', j⟩, more, ⟨hl', shape', hkey', ht⟩, hmore, rfl⟩
          obtain rfl := Option.some.inj (hl.symm.trans hl')
          obtain rfl := Option.some.inj (hkey.symm.trans hkey')
          obtain ⟨hnew, hnodup⟩ := List.nodup_cons.mp hnodup
          exact ⟨j, ht, more, ⟨hall, hnodup, hmore⟩, if_neg hnew⟩

theorem exists_perm_of_forall₂ {α β : Type} {R : α → β → Prop} {as bs : List α} {cs : List β} (h : as.Perm bs)
    (hcs : List.Forall₂ R as cs) : ∃ ds, List.Forall₂ R bs ds ∧ cs.Perm ds := by
  obtain ⟨ds, hds, hperm⟩ := List.perm_comp_forall₂ h.symm hcs
  exact ⟨ds, hds, hperm.symm⟩

theorem names_of_forall₂ {R : Literal × Tree → String × Json → Prop} (hR : ∀ m j, R m j → m.1.value? = some j.1)
    (h : List.Forall₂ R ms js) : ms.map (·.1.value?) = (js.map (·.1)).map some := by
  induction h with
  | nil => rfl
  | cons hm _ ih => rw [List.map_cons, List.map_cons, List.map_cons, ih, hR _ _ hm]

theorem nodup_names_of_readEach? (hn : (ms.map (·.1.value?)).Nodup) (h : readEach? v value ms = some js) :
    (js.map (·.1)).Nodup := by
  rw [names_of_forall₂ (fun _ _ hm => hm.1) (readEach?_eq_some_iff.mp h)] at hn
  exact hn.of_map

theorem readEach?_of_perm (h : ms.Perm ns) (hread : readEach? v value ms = some js) :
    ∃ others, readEach? v value ns = some others ∧ js.Perm others := by
  obtain ⟨others, hothers, hperm⟩ := exists_perm_of_forall₂ h (readEach?_eq_some_iff.mp hread)
  exact ⟨others, readEach?_eq_some_iff.mpr hothers, hperm⟩

theorem readMembers?_of_perm (h : ms.Perm ns) (hread : readMembers? v fields ms = some js) :
    ∃ others, readMembers? v fields ns = some others ∧ js.Perm others := by
  obtain ⟨hall, hnodup, hms⟩ := readMembers?_eq_some_iff.mp hread
  obtain ⟨others, hothers, hperm⟩ := exists_perm_of_forall₂ (h.filter _) hms
  refine ⟨others, readMembers?_eq_some_iff.mpr ⟨fun m hm => hall m (h.mem_iff.mpr hm), ?_, hothers⟩, hperm⟩
  exact (hperm.map _).nodup_iff.mp hnodup

theorem nodup_names_of_readMembers? (h : readMembers? v fields ms = some js) : (js.map (·.1)).Nodup :=
  (readMembers?_eq_some_iff.mp h).2.1

theorem mem_names_of_readMembers? (h : readMembers? v fields ms = some js) (hkey : key ∈ js.map (·.1)) :
    some key ∈ ms.map (·.1.value?) := by
  obtain ⟨-, -, hms⟩ := readMembers?_eq_some_iff.mp h
  have hknown : some key ∈ (ms.filter (isKnown fields)).map (·.1.value?) := by
    rw [names_of_forall₂ (fun _ _ hm => hm.1) hms]
    exact List.mem_map_of_mem hkey
  exact (List.filter_sublist.map _).subset hknown

/-! ## The meaning of a tree -/

/-- What a tree means at a shape, if it fits there. -/
def meaning? (v : Vocabulary ρ) (words : List String) (shape : Shape ρ) (t : Tree) : Option Json :=
  (t.read? v shape).map (core v words shape)

theorem wordOf?_of_perm (h : ms.Perm ns) (hms : wordOf? ms = some j) : wordOf? ns = some j := by
  unfold wordOf? at hms
  split at hms
  · obtain rfl := List.singleton_perm.mp h
    exact hms
  · cases hms

theorem meaning?_of_perm (hn : (∃ name, shape.plain = .record name) ∨ (ms.map (·.1.value?)).Nodup) (h : ms.Perm ns)
    (hmeans : (object ms).meaning? v words shape = some j) : (object ns).meaning? v words shape = some j := by
  obtain ⟨value, hread, rfl⟩ := Option.map_eq_some_iff.mp hmeans
  have hobject {js others : List (String × Json)} (hnodup : (js.map (·.1)).Nodup) (hperm : js.Perm others) :
      ((some others).map Json.object).map (core v words shape) = some (core v words shape (.object js)) :=
    congrArg some (core_object_of_perm hnodup hperm).symm
  have htable {element : Shape ρ} (hn : (ms.map (·.1.value?)).Nodup)
      (hread : (readEach? v element ms).map Json.object = some value) :
      ((readEach? v element ns).map Json.object).map (core v words shape) = some (core v words shape value) := by
    obtain ⟨js, hjs, rfl⟩ := Option.map_eq_some_iff.mp hread
    obtain ⟨others, hothers, hperm⟩ := readEach?_of_perm h hjs
    rw [hothers]
    exact hobject (nodup_names_of_readEach? hn hjs) hperm
  rw [meaning?, Tree.read?]
  rw [Tree.read?] at hread
  cases hplain : shape.plain with
  | word =>
    rw [hplain] at hread
    exact congrArg (Option.map _) (wordOf?_of_perm h hread)
  | any =>
    rw [hplain] at hn hread
    exact htable (hn.resolve_left (by simp)) hread
  | table value =>
    rw [hplain] at hn hread
    exact htable (hn.resolve_left (by simp)) hread
  | record name =>
    rw [hplain] at hread
    obtain ⟨js, hjs, rfl⟩ := Option.map_eq_some_iff.mp hread
    obtain ⟨others, hothers, hperm⟩ := readMembers?_of_perm h hjs
    simp only [hothers]
    exact hobject (nodup_names_of_readMembers? hjs) hperm
  | text | flag | count | optional | list =>
    rw [hplain] at hread
    cases hread

theorem meaning?_eq_of_perm (hn : (∃ name, shape.plain = .record name) ∨ (ms.map (·.1.value?)).Nodup) (h : ms.Perm ns) :
    (object ms).meaning? v words shape = (object ns).meaning? v words shape := by
  have hn' : (∃ name, shape.plain = .record name) ∨ (ns.map (·.1.value?)).Nodup := hn.imp_right (h.map _).nodup_iff.mp
  ext j
  exact ⟨meaning?_of_perm hn h, meaning?_of_perm hn' h.symm⟩

theorem readMembers?_insert_unknown (hl : l.value? = some key) (hkey : memberShape? key fields = none) :
    readMembers? v fields (front ++ (l, t) :: back) = readMembers? v fields (front ++ back) := by
  induction front with
  | nil => exact readMembers?_unknown hl hkey
  | cons m front ih => rw [List.cons_append, List.cons_append, readMembers?, readMembers?, ih]

theorem meaning?_object_record (hshape : shape.plain = .record name) : (object ms).meaning? v words shape =
    ((readMembers? v (v.members name) ms).map Json.object).map (core v words shape) := by
  rw [meaning?, Tree.read?, hshape]

theorem meaning?_spelled_cons (hshape : shape.plain = .record name) (hl : l.value? = some key)
    (hkey : memberShape? key (v.members name) = some inner) (hnew : some key ∉ ms.map (·.1.value?))
    (ht : IsDefault words inner t) :
    (object ((l, t) :: ms)).meaning? v words shape = (object ms).meaning? v words shape := by
  obtain ⟨j, hj, hdefault⟩ := ht.read? (v := v)
  rw [meaning?_object_record hshape, meaning?_object_record hshape, readMembers?_known hl hkey, hj, Option.bind_some]
  cases hread : readMembers? v (v.members name) ms with
  | none => rfl
  | some js =>
    have hfresh : key ∉ js.map (·.1) := fun hmem => hnew (mem_names_of_readMembers? hread hmem)
    rw [Option.bind_some, if_neg hfresh]
    exact congrArg some (core_object_cons_of_isDefault hshape hkey hdefault hfresh)

/-! ### Values of members and elements -/

/-- What the members of a table mean. -/
theorem meanings_cons (hvalue : ∀ key, shape.member? v key = some value) :
    (readEach? v value ((l, t) :: ms)).map (coreEach v words shape) =
      l.value?.bind fun key => (t.meaning? v words value).bind fun j =>
        ((readEach? v value ms).map (coreEach v words shape)).map ((key, j) :: ·) := by
  rw [readEach?, meaning?]
  cases l.value? with
  | none => rfl
  | some key =>
    cases t.read? v value with
    | none => rfl
    | some j =>
      cases readEach? v value ms with
      | none => rfl
      | some js => exact congrArg some (coreEach_cons (hvalue key))

theorem meanings_cons_known (hl : l.value? = some key) (hkey : memberShape? key fields = some inner)
    (hmember : shape.member? v key = some inner) :
    (readMembers? v fields ((l, t) :: ms)).map (coreEach v words shape) = (t.meaning? v words inner).bind fun j =>
      ((readMembers? v fields ms).map (coreEach v words shape)).bind fun more =>
        if key ∈ more.map (·.1) then none else some ((key, j) :: more) := by
  rw [readMembers?_known hl hkey, meaning?]
  cases t.read? v inner with
  | none => rfl
  | some j =>
    cases readMembers? v fields ms with
    | none => rfl
    | some js =>
      simp only [Option.bind_some, Option.map_some, names_coreEach]
      split
      · rfl
      · exact congrArg some (coreEach_cons hmember)

theorem meanings_cons_element : (readAll? v value (t :: es)).map (coreAll v words value) =
    (t.meaning? v words value).bind fun j => ((readAll? v value es).map (coreAll v words value)).map (j :: ·) := by
  rw [readAll?, meaning?]
  cases t.read? v value with
  | none => rfl
  | some j =>
    cases readAll? v value es with
    | none => rfl
    | some js => rfl

theorem meanings_cons_field {others : List (String × Shape ρ)} (hmember : shape.member? v key = some inner) :
    (readFields? v ((key, inner) :: others) (t :: es)).map (coreEach v words shape) =
      (t.meaning? v words inner).bind fun j =>
        ((readFields? v others es).map (coreEach v words shape)).map ((key, j) :: ·) := by
  rw [readFields?, meaning?]
  cases t.read? v inner with
  | none => rfl
  | some j =>
    cases readFields? v others es with
    | none => rfl
    | some js => exact congrArg some (coreEach_cons hmember)

theorem meanings_member (hvalue : ∀ key, shape.member? v key = some inner)
    (h : t.meaning? v words inner = u.meaning? v words inner) :
    (readEach? v inner (front ++ (l, t) :: back)).map (coreEach v words shape) =
      (readEach? v inner (front ++ (l, u) :: back)).map (coreEach v words shape) := by
  induction front with
  | nil => rw [List.nil_append, List.nil_append, meanings_cons hvalue, meanings_cons hvalue, h]
  | cons m front ih =>
    obtain ⟨l', t'⟩ := m
    rw [List.cons_append, List.cons_append, meanings_cons hvalue, meanings_cons hvalue, ih]

theorem meanings_member_known (hshape : shape.plain = .record name) (hl : l.value? = some key)
    (hkey : memberShape? key (v.members name) = some inner) (h : t.meaning? v words inner = u.meaning? v words inner) :
    (readMembers? v (v.members name) (front ++ (l, t) :: back)).map (coreEach v words shape) =
      (readMembers? v (v.members name) (front ++ (l, u) :: back)).map (coreEach v words shape) := by
  have hmember (key : String) := Shape.member?_record (v := v) hshape key
  induction front with
  | nil =>
    rw [List.nil_append, List.nil_append, meanings_cons_known hl hkey ((hmember key).trans hkey),
      meanings_cons_known hl hkey ((hmember key).trans hkey), h]
  | cons m front ih =>
    obtain ⟨l', t'⟩ := m
    rw [List.cons_append, List.cons_append]
    cases hl' : l'.value? with
    | none => rw [readMembers?, readMembers?, hl', Option.bind_none, Option.bind_none]
    | some key' =>
      cases hkey' : memberShape? key' (v.members name) with
      | none => rw [readMembers?_unknown hl' hkey', readMembers?_unknown hl' hkey', ih]
      | some inner' =>
        rw [meanings_cons_known hl' hkey' ((hmember key').trans hkey'),
          meanings_cons_known hl' hkey' ((hmember key').trans hkey'), ih]

theorem meanings_element (h : t.meaning? v words inner = u.meaning? v words inner) {front back : List Tree} :
    (readAll? v inner (front ++ t :: back)).map (coreAll v words inner) =
      (readAll? v inner (front ++ u :: back)).map (coreAll v words inner) := by
  induction front with
  | nil => rw [List.nil_append, List.nil_append, meanings_cons_element, meanings_cons_element, h]
  | cons e front ih => rw [List.cons_append, List.cons_append, meanings_cons_element, meanings_cons_element, ih]

theorem meanings_field {front back : List Tree} (hfields : ∀ field ∈ fields, shape.member? v field.1 = some field.2)
    (hplace : (fields[front.length]?).map (·.2) = some inner) (h : t.meaning? v words inner = u.meaning? v words inner) :
    (readFields? v fields (front ++ t :: back)).map (coreEach v words shape) =
      (readFields? v fields (front ++ u :: back)).map (coreEach v words shape) := by
  induction fields generalizing front with
  | nil => simp at hplace
  | cons field fields ih =>
    obtain ⟨key, first⟩ := field
    obtain ⟨hmember, hfields⟩ := List.forall_mem_cons.mp hfields
    cases front with
    | nil =>
      obtain rfl : first = inner := by simpa using hplace
      rw [List.nil_append, List.nil_append, meanings_cons_field hmember, meanings_cons_field hmember, h]
    | cons e front =>
      rw [List.cons_append, List.cons_append, meanings_cons_field hmember, meanings_cons_field hmember,
        ih hfields (by simpa using hplace)]

theorem map_core_object (read? : Option (List (String × Json))) :
    (read?.map Json.object).map (core v words shape) =
      (read?.map (coreEach v words shape)).map fun js => .object (arranged v words shape js) := by
  cases read? with
  | none => rfl
  | some js => exact congrArg some (by rw [core])

theorem map_core_array (h : ∀ es, core v words shape (.array es) = .array (coreAll v words inner es))
    (read? : Option (List Json)) :
    (read?.map Json.array).map (core v words shape) = (read?.map (coreAll v words inner)).map .array := by
  cases read? with
  | none => rfl
  | some es => exact congrArg some (h es)

theorem meaning?_member (hl : l.value? = some key) (hmember : shape.member? v key = some inner)
    (h : t.meaning? v words inner = u.meaning? v words inner) :
    (object (front ++ (l, t) :: back)).meaning? v words shape =
      (object (front ++ (l, u) :: back)).meaning? v words shape := by
  rw [meaning?, meaning?, Tree.read?, Tree.read?]
  cases hplain : shape.plain with
  | any =>
    have hvalue (key : String) : shape.member? v key = some .any := by rw [Shape.member?, hplain]
    obtain rfl := Option.some.inj ((hvalue key).symm.trans hmember)
    simp only [map_core_object, meanings_member hvalue h]
  | table value =>
    have hvalue (key : String) : shape.member? v key = some value := by rw [Shape.member?, hplain]
    obtain rfl := Option.some.inj ((hvalue key).symm.trans hmember)
    simp only [map_core_object, meanings_member hvalue h]
  | record name =>
    rw [Shape.member?_record hplain] at hmember
    simp only [map_core_object, meanings_member_known hplain hl hmember h]
  | word =>
    rw [Shape.member?, hplain] at hmember
    cases hmember
  | text | flag | count | optional | list => rfl

theorem meaning?_element {front back : List Tree} (hv : v.IsDistinct) (hplace : shape.element? v front.length = some inner)
    (h : t.meaning? v words inner = u.meaning? v words inner) :
    (array (front ++ t :: back)).meaning? v words shape = (array (front ++ u :: back)).meaning? v words shape := by
  rw [meaning?, meaning?, Tree.read?, Tree.read?]
  rw [Shape.element?] at hplace
  cases hplain : shape.plain with
  | any =>
    rw [hplain] at hplace
    obtain rfl := Option.some.inj hplace
    have hcore (es : List Json) : core v words shape (.array es) = .array (coreAll v words .any es) := by rw [core, hplain]
    simp only [map_core_array hcore, meanings_element h]
  | list element =>
    rw [hplain] at hplace
    obtain rfl := Option.some.inj hplace
    have hcore (es : List Json) : core v words shape (.array es) = .array (coreAll v words element es) := by
      rw [core, hplain]
    simp only [map_core_array hcore, meanings_element h]
  | record name =>
    rw [hplain] at hplace
    have hfields : ∀ field ∈ v.members name, shape.member? v field.1 = some field.2 := by
      intro field hfield
      rw [Shape.member?_record hplain, memberShape?_of_mem (hv name) hfield]
    simp only [map_core_object, meanings_field hfields hplace h]
  | text | flag | count | word | optional | table => rfl

/-- An edit at any depth leaves what a tree means as it is. -/
theorem Edit.meaning?_eq (hv : v.IsDistinct) (h : Edit v words shape t u) :
    t.meaning? v words shape = u.meaning? v words shape := by
  induction h with
  | permute hn h => exact meaning?_eq_of_perm (.inr hn) h
  | unknown hshape hl hkey =>
    rw [meaning?_object_record hshape, meaning?_object_record hshape, readMembers?_insert_unknown hl hkey]
  | spelled hshape hl hkey hnew ht =>
    rw [← meaning?_spelled_cons hshape hl hkey hnew ht]
    exact meaning?_eq_of_perm (.inl ⟨_, hshape⟩) List.perm_middle.symm
  | member hl hmember _ ih => exact meaning?_member hl hmember ih
  | element hplace _ ih => exact meaning?_element hv hplace ih

theorem meaning?_eq_of_edits (hv : v.IsDistinct) (h : Relation.EqvGen (Edit v words shape) t u) :
    t.meaning? v words shape = u.meaning? v words shape := by
  induction h with
  | rel _ _ h => exact h.meaning?_eq hv
  | refl => rfl
  | symm _ _ _ ih => exact ih.symm
  | trans _ _ _ _ _ ih ih' => exact ih.trans ih'

end Tree

end ModuleScaffold.Json
