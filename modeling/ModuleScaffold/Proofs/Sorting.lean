import Mathlib.Data.List.Sort

/-! # Stable sorting

Sorting a list and then leaving entries out is the same as leaving them out first. The two sorts of the
libraries agree, also on entries that compare as equal. -/

namespace ModuleScaffold.Sorting

variable {α β : Type} (r : α → α → Prop) (s : β → β → Prop) [DecidableRel r] [DecidableRel s]

theorem orderedInsert_append (a : α) (l m : List α) (hl : ∀ b ∈ l, ¬ r a b) (hm : ∀ b ∈ m, r a b) :
    (l ++ m).orderedInsert r a = l ++ a :: m := by
  induction l with
  | nil =>
    cases m with
    | nil => rfl
    | cons b m => rw [List.nil_append, List.orderedInsert_cons, if_pos (hm b List.mem_cons_self)]; rfl
  | cons b l ih =>
    rw [List.cons_append, List.orderedInsert_cons, if_neg (hl b List.mem_cons_self),
      ih fun c hc => hl c (List.mem_cons_of_mem _ hc)]
    rfl

theorem mergeSort_eq_insertionSort_stable (le : α → α → Bool)
    (trans : ∀ a b c, le a b → le b c → le a c) (total : ∀ a b, le a b || le b a) (l : List α) :
    l.mergeSort le = l.insertionSort (fun a b => le a b = true) := by
  induction l with
  | nil => simp
  | cons a l ih =>
    obtain ⟨l₁, l₂, hcons, hl, hlt⟩ := List.mergeSort_cons trans total a l
    have hsorted := List.pairwise_mergeSort trans total (a :: l)
    rw [hcons, List.pairwise_append] at hsorted
    have hbehind : ∀ b ∈ l₂, le a b = true := fun b hb => List.rel_of_pairwise_cons hsorted.2.1 hb
    rw [List.insertionSort_cons, ← ih, hcons, hl, orderedInsert_append _ a l₁ l₂ _ hbehind]
    intro b hb
    simpa using hlt b hb

theorem orderedInsert_congr (t : α → α → Prop) [DecidableRel t] (a : α) (l : List α)
    (h : ∀ b ∈ l, r a b ↔ t a b) : l.orderedInsert r a = l.orderedInsert t a := by
  induction l with
  | nil => rfl
  | cons b l ih =>
    rw [List.orderedInsert_cons, List.orderedInsert_cons, ih fun c hc => h c (List.mem_cons_of_mem _ hc)]
    simp only [h b List.mem_cons_self]

variable (f : α → Option β)

theorem filterMap_orderedInsert_none (a : α) (l : List α) (ha : f a = none) :
    (l.orderedInsert r a).filterMap f = l.filterMap f := by
  induction l with
  | nil => simp [ha]
  | cons b l ih =>
    rw [List.orderedInsert_cons]
    split
    · rw [List.filterMap_cons_none ha]
    · rw [List.filterMap_cons, List.filterMap_cons, ih]

variable {f}

theorem filterMap_orderedInsert_some (hf : ∀ a b x y, f a = some x → f b = some y → (r a b ↔ s x y))
    [IsTrans α r] (a : α) (x : β) (ha : f a = some x) (l : List α) (hl : l.Pairwise r) :
    (l.orderedInsert r a).filterMap f = (l.filterMap f).orderedInsert s x := by
  induction l with
  | nil => simp [ha]
  | cons b l ih =>
    rw [List.orderedInsert_cons]
    split
    · next hab =>
      -- Everything from here on comes behind `a`, also what `f` makes of it.
      have hbehind : ∀ y ∈ (b :: l).filterMap f, s x y := by
        intro y hy
        obtain ⟨c, hc, hcy⟩ := List.mem_filterMap.mp hy
        rw [← hf a c x y ha hcy]
        rcases List.mem_cons.mp hc with rfl | hc
        · exact hab
        · exact IsTrans.trans _ _ _ hab (List.rel_of_pairwise_cons hl hc)
      rw [List.filterMap_cons_some ha]
      exact (orderedInsert_append s x [] _ (by simp) hbehind).symm
    · next hab =>
      have ih := ih hl.of_cons
      cases hb : f b with
      | none => rw [List.filterMap_cons_none hb, List.filterMap_cons_none hb, ih]
      | some y =>
        rw [List.filterMap_cons_some hb, List.filterMap_cons_some hb, ih, List.orderedInsert_cons,
          if_neg (by rwa [← hf a b x y ha hb])]

theorem filterMap_insertionSort (hf : ∀ a b x y, f a = some x → f b = some y → (r a b ↔ s x y))
    [Std.Total r] [IsTrans α r] (l : List α) :
    (l.insertionSort r).filterMap f = (l.filterMap f).insertionSort s := by
  induction l with
  | nil => rfl
  | cons a l ih =>
    rw [List.insertionSort_cons]
    cases ha : f a with
    | none => rw [filterMap_orderedInsert_none r f a _ ha, ih, List.filterMap_cons_none ha]
    | some x =>
      rw [filterMap_orderedInsert_some r s hf a x ha _ (List.pairwise_insertionSort r l), ih,
        List.filterMap_cons_some ha, List.insertionSort_cons]

end ModuleScaffold.Sorting
