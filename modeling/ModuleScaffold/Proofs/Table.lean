import ModuleScaffold.Table

/-! # Tables

What a table holds after its names and values have been changed, and that it keeps the order of names. -/

namespace ModuleScaffold

namespace Table

variable {α : Type}

theorem mem_insert_self (name : String) (value : α) (t : Table α) :
    (name, value) ∈ t.insert name value := by
  induction t with
  | nil => exact List.mem_cons_self
  | cons e rest ih =>
    unfold Table.insert
    split
    · exact List.mem_cons_self
    · split
      · exact List.mem_cons_self
      · exact List.mem_cons_of_mem _ ih

theorem mem_of_mem_insert {name : String} {value : α} {t : Table α} {e : String × α}
    (h : e ∈ t.insert name value) : e = (name, value) ∨ e ∈ t := by
  induction t with
  | nil => exact Or.inl (List.mem_singleton.mp h)
  | cons d rest ih =>
    unfold Table.insert at h
    split at h
    · exact List.mem_cons.mp h
    · split at h
      · rcases List.mem_cons.mp h with h | h
        · exact Or.inl h
        · exact Or.inr (List.mem_cons_of_mem _ h)
      · rcases List.mem_cons.mp h with h | h
        · exact Or.inr (by rw [h]; exact List.mem_cons_self)
        · rcases ih h with h | h
          · exact Or.inl h
          · exact Or.inr (List.mem_cons_of_mem _ h)

/-- Only the value that a name has had is lost when it gets another one. -/
theorem mem_insert_of_mem {name : String} (value : α) {t : Table α} {e : String × α} (h : e ∈ t) :
    e ∈ t.insert name value ∨ (e.1 = name ∧ t.find? name = some e.2) := by
  induction t with
  | nil => cases h
  | cons d rest ih =>
    obtain ⟨n, a⟩ := d
    unfold Table.insert
    split
    · exact Or.inl (List.mem_cons_of_mem _ h)
    · split
      · next hn =>
        rcases List.mem_cons.mp h with rfl | h
        · exact Or.inr ⟨hn, by simp [Table.find?, hn]⟩
        · exact Or.inl (List.mem_cons_of_mem _ h)
      · next hn =>
        rcases List.mem_cons.mp h with rfl | h
        · exact Or.inl List.mem_cons_self
        · rcases ih h with h | ⟨hname, hfind⟩
          · exact Or.inl (List.mem_cons_of_mem _ h)
          · exact Or.inr ⟨hname, by simpa [Table.find?, hn] using hfind⟩

theorem mem_of_find? {name : String} {value : α} {t : Table α} (h : t.find? name = some value) :
    (name, value) ∈ t := by
  induction t with
  | nil => cases h
  | cons d rest ih =>
    obtain ⟨n, a⟩ := d
    unfold Table.find? at h
    split at h
    · next hn =>
      cases h
      rw [hn]
      exact List.mem_cons_self
    · exact List.mem_cons_of_mem _ (ih h)

/-! ## Tables with other values, or with some names only -/

variable {β : Type}

theorem find?_map (f : String → α → β) (name : String) (t : Table α) :
    find? name (t.map fun (n, a) => (n, f n a)) = (t.find? name).map (f name) := by
  induction t with
  | nil => rfl
  | cons e rest ih =>
    obtain ⟨n, a⟩ := e
    rw [List.map_cons, find?, find?]
    split
    · next hn =>
      rw [hn]
      rfl
    · exact ih

theorem find?_filter_names (keep : String → Bool) {name : String} (h : keep name = true) (t : Table α) :
    find? name (t.filter fun e => keep e.1) = t.find? name := by
  induction t with
  | nil => rfl
  | cons e rest ih =>
    obtain ⟨n, a⟩ := e
    by_cases hn : n = name
    · subst hn
      simp [h, find?]
    · cases hkeep : keep n <;> simp [hkeep, find?, hn, ih]

theorem find?_eq_none_of_forall_ne {name : String} {t : Table α} (h : ∀ e ∈ t, e.1 ≠ name) :
    t.find? name = none := by
  induction t with
  | nil => rfl
  | cons e rest ih =>
    obtain ⟨n, a⟩ := e
    rw [find?, if_neg (h (n, a) List.mem_cons_self), ih fun e he => h e (List.mem_cons_of_mem _ he)]

/-! ## Sorted tables -/

theorem Sorted.ne_of_mem {n : String} {a : α} {rest : Table α} (h : Sorted ((n, a) :: rest)) :
    ∀ e ∈ rest, e.1 ≠ n := by
  intro e he heq
  have hlt := (List.pairwise_cons.mp h).1 e he
  simp only [heq] at hlt
  exact String.lt_irrefl n hlt

theorem Sorted.eq_of_mem {t : Table α} (h : t.Sorted) {name : String} {a b : α} (ha : (name, a) ∈ t)
    (hb : (name, b) ∈ t) : a = b := by
  induction t with
  | nil => cases ha
  | cons e rest ih =>
    rw [List.mem_cons] at ha hb
    rcases ha with rfl | ha
    · rcases hb with heq | hb
      · exact (Prod.mk.inj heq).2.symm
      · exact (h.ne_of_mem _ hb rfl).elim
    · rcases hb with rfl | hb
      · exact (h.ne_of_mem _ ha rfl).elim
      · exact ih (List.pairwise_cons.mp h).2 ha hb

theorem Sorted.map {t : Table α} (h : t.Sorted) (f : String → α → β) :
    Sorted (t.map fun (n, a) => (n, f n a)) := by
  rw [Sorted, List.pairwise_map]
  exact h

/-- A name stands once in a sorted table, so nothing takes the place of a value that is filtered out. -/
theorem Sorted.find?_filter {t : Table α} (h : t.Sorted) (keep : α → Bool) (name : String) :
    find? name (t.filter fun e => keep e.2) = (t.find? name).filter keep := by
  induction t with
  | nil => rfl
  | cons e rest ih =>
    obtain ⟨n, a⟩ := e
    have hrest := ih (List.pairwise_cons.mp h).2
    by_cases hn : n = name
    · subst hn
      have hgone : find? n (rest.filter fun e => keep e.2) = none :=
        find?_eq_none_of_forall_ne fun e he => h.ne_of_mem e (List.mem_filter.mp he).1
      cases hkeep : keep a <;> simp [hkeep, find?, hgone, Option.filter]
    · cases hkeep : keep a <;> simp [hkeep, find?, hn, hrest]

theorem sorted_insert {t : Table α} (h : t.Sorted) (name : String) (value : α) : (t.insert name value).Sorted := by
  induction t with
  | nil => exact List.pairwise_singleton _ _
  | cons e rest ih =>
    obtain ⟨n, a⟩ := e
    obtain ⟨hfirst, hrest⟩ := List.pairwise_cons.mp h
    rw [insert]
    split
    · next hlt =>
      refine List.pairwise_cons.mpr ⟨?_, h⟩
      intro e he
      rcases List.mem_cons.mp he with rfl | he
      · exact hlt
      · exact String.lt_trans hlt (hfirst e he)
    · next hge =>
      split
      · next heq =>
        subst heq
        exact List.pairwise_cons.mpr ⟨hfirst, hrest⟩
      · next hne =>
        refine List.pairwise_cons.mpr ⟨?_, ih hrest⟩
        intro e he
        rcases mem_of_mem_insert he with rfl | he
        · exact String.not_le.mp fun hle => hne (String.le_antisymm (String.not_lt.mp hge) hle)
        · exact hfirst e he

theorem sorted_ofList (entries : List (String × α)) : (ofList entries).Sorted := by
  have hfold : ∀ t : Table α, t.Sorted → (entries.foldl (fun t e => t.insert e.1 e.2) t).Sorted := by
    induction entries with
    | nil => exact fun t ht => ht
    | cons e rest ih => exact fun t ht => ih _ (sorted_insert ht e.1 e.2)
  exact hfold [] List.Pairwise.nil

/-! ## The same entries in another order -/

theorem perm_insert {name : String} {t : Table α} (h : t.find? name = none) (value : α) :
    (t.insert name value).Perm ((name, value) :: t) := by
  induction t with
  | nil => exact .refl _
  | cons e rest ih =>
    obtain ⟨n, a⟩ := e
    rw [find?] at h
    split at h
    · cases h
    · next hne =>
      rw [insert]
      split
      · exact .refl _
      · exact ((ih h).cons (n, a)).trans (.swap _ _ _)

theorem find?_eq_none_of_not_mem {name : String} {t : Table α} (h : name ∉ t.map (·.1)) : t.find? name = none :=
  find?_eq_none_of_forall_ne fun e he heq => h (List.mem_map.mpr ⟨e, he, heq⟩)

/-- Entries with names of their own all stand in the table of them. -/
theorem perm_ofList {entries : List (String × α)} (h : (entries.map (·.1)).Nodup) : (ofList entries).Perm entries := by
  have hfold : ∀ (rest : List (String × α)) (t : Table α), (rest.map (·.1)).Nodup →
      (∀ e ∈ rest, t.find? e.1 = none) → (rest.foldl (fun t e => t.insert e.1 e.2) t).Perm (rest ++ t) := by
    intro rest
    induction rest with
    | nil => exact fun t _ _ => .refl t
    | cons e rest ih =>
      intro t hnodup hnew
      obtain ⟨hname, hnodup⟩ := List.nodup_cons.mp hnodup
      obtain ⟨hfirst, hnew⟩ := List.forall_mem_cons.mp hnew
      have hstill : ∀ d ∈ rest, (t.insert e.1 e.2).find? d.1 = none := by
        intro d hd
        have hne : d.1 ≠ e.1 := fun heq => hname (List.mem_map.mpr ⟨d, hd, heq⟩)
        rw [find?_insert_of_ne hne, hnew d hd]
      exact (ih _ hnodup hstill).trans (((perm_insert hfirst e.2).append_left rest).trans List.perm_middle)
  have hall := hfold entries [] h fun _ _ => rfl
  rwa [List.append_nil] at hall

theorem Sorted.eq_of_perm {s t : Table α} (hs : s.Sorted) (ht : t.Sorted) (h : s.Perm t) : s = t :=
  h.eq_of_pairwise (fun _ _ _ _ hlt hgt => (String.lt_irrefl _ (String.lt_trans hlt hgt)).elim) hs ht

/-- Entries with names of their own make one table in whatever order they come. -/
theorem ofList_eq_of_perm {entries others : List (String × α)} (hn : (entries.map (·.1)).Nodup)
    (h : entries.Perm others) : ofList entries = ofList others := by
  have hothers : (others.map (·.1)).Nodup := (h.map _).nodup_iff.mp hn
  exact (sorted_ofList _).eq_of_perm (sorted_ofList _) ((perm_ofList hn).trans (h.trans (perm_ofList hothers).symm))

theorem Sorted.nodup_names {t : Table α} (h : t.Sorted) : (t.map (·.1)).Nodup := by
  rw [List.Nodup, List.pairwise_map]
  exact h.imp String.ne_of_lt

theorem Sorted.ofList_eq_self {t : Table α} (h : t.Sorted) : ofList t = t :=
  (sorted_ofList t).eq_of_perm h (perm_ofList h.nodup_names)

/-- Every entry of a table in which no name stands twice is found. -/
theorem find?_of_mem {name : String} {value : α} {t : Table α} (hn : (t.map (·.1)).Nodup) (h : (name, value) ∈ t) :
    t.find? name = some value := by
  induction t with
  | nil => cases h
  | cons e rest ih =>
    obtain ⟨n, a⟩ := e
    obtain ⟨hfirst, hn⟩ := List.nodup_cons.mp hn
    rw [find?]
    rcases List.mem_cons.mp h with heq | hrest
    · obtain ⟨rfl, rfl⟩ := Prod.mk.inj heq
      exact if_pos rfl
    · have hne : n ≠ name := by
        rintro rfl
        exact hfirst (List.mem_map.mpr ⟨_, hrest, rfl⟩)
      rw [if_neg hne, ih hn hrest]

theorem find?_eq_some_iff {name : String} {value : α} {t : Table α} (hn : (t.map (·.1)).Nodup) :
    t.find? name = some value ↔ (name, value) ∈ t :=
  ⟨mem_of_find?, find?_of_mem hn⟩

theorem find?_eq_of_perm {s t : Table α} (hn : (s.map (·.1)).Nodup) (h : s.Perm t) (name : String) :
    s.find? name = t.find? name := by
  have ht : (t.map (·.1)).Nodup := (h.map _).nodup_iff.mp hn
  ext value
  rw [find?_eq_some_iff hn, find?_eq_some_iff ht, h.mem_iff]

theorem find?_filterMap (names : List String) (value? : String → Option α) (name : String) :
    find? name (names.filterMap fun n => (value? n).map (n, ·)) = if name ∈ names then value? name else none := by
  induction names with
  | nil => rfl
  | cons n names ih =>
    cases hn : value? n with
    | none =>
      rw [List.filterMap_cons_none (by rw [hn, Option.map_none]), ih]
      by_cases heq : name = n
      · subst heq
        simp [hn]
      · simp [heq]
    | some a =>
      rw [List.filterMap_cons_some (by rw [hn, Option.map_some]), find?, ih]
      by_cases heq : n = name
      · subst heq
        simp [hn]
      · simp [heq, Ne.symm heq]

/-! ## Tables made of lists -/

theorem mem_of_mem_ofList {entries : List (String × α)} {e : String × α} (h : e ∈ ofList entries) : e ∈ entries := by
  have hfold : ∀ (rest : List (String × α)) (t : Table α),
      e ∈ rest.foldl (fun t e => t.insert e.1 e.2) t → e ∈ t ∨ e ∈ rest := by
    intro rest
    induction rest with
    | nil => exact fun t ht => Or.inl ht
    | cons first rest ih =>
      intro t ht
      rcases ih _ ht with ht | hrest
      · rcases mem_of_mem_insert ht with rfl | ht
        · exact Or.inr List.mem_cons_self
        · exact Or.inl ht
      · exact Or.inr (List.mem_cons_of_mem _ hrest)
  exact (hfold entries [] h).resolve_left (by simp)

theorem ofList_ofList (entries : List (String × α)) : ofList (ofList entries) = ofList entries :=
  (sorted_ofList entries).ofList_eq_self

theorem insert_map (f : α → β) (name : String) (value : α) (t : Table α) :
    (t.insert name value).map (fun e => (e.1, f e.2)) = insert name (f value) (t.map fun e => (e.1, f e.2)) := by
  induction t with
  | nil => rfl
  | cons e rest ih =>
    obtain ⟨n, a⟩ := e
    rw [insert, List.map_cons, insert]
    split
    · rfl
    · split
      · rfl
      · rw [List.map_cons, ih]

theorem ofList_map (f : α → β) (entries : List (String × α)) :
    ofList (entries.map fun e => (e.1, f e.2)) = (ofList entries).map fun e => (e.1, f e.2) := by
  have hfold : ∀ t : Table α, (entries.map fun e => (e.1, f e.2)).foldl (fun (t : Table β) e => t.insert e.1 e.2)
      (t.map fun e => (e.1, f e.2)) = (entries.foldl (fun t e => t.insert e.1 e.2) t).map fun e => (e.1, f e.2) := by
    induction entries with
    | nil => exact fun _ => rfl
    | cons e rest ih =>
      intro t
      have hrest := ih (t.insert e.1 e.2)
      rwa [insert_map] at hrest
  exact hfold []

end Table

end ModuleScaffold
