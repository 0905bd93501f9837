import Mathlib.Data.List.Forall2
import Mathlib.Data.List.Perm.Basic

/-! # Lists that go together

Two lists that go together entry by entry, and what becomes of them when one of them is put into another order. -/

namespace ModuleScaffold.Paired

variable {α β : Type} {R : α → β → Prop}

theorem exists_of_forall {l : List α} (h : ∀ a ∈ l, ∃ b, R a b) : ∃ u, List.Forall₂ R l u := by
  induction l with
  | nil => exact ⟨[], .nil⟩
  | cons a l ih =>
    obtain ⟨⟨b, hb⟩, hl⟩ := List.forall_mem_cons.mp h
    obtain ⟨u, hu⟩ := ih hl
    exact ⟨b :: u, .cons hb hu⟩

theorem exists_of_mem_left {l : List α} {u : List β} (h : List.Forall₂ R l u) {a : α} (ha : a ∈ l) :
    ∃ b ∈ u, R a b := by
  induction h with
  | nil => cases ha
  | cons hab _ ih =>
    rcases List.mem_cons.mp ha with rfl | ha
    · exact ⟨_, List.mem_cons_self, hab⟩
    · obtain ⟨b, hb, hr⟩ := ih ha
      exact ⟨b, List.mem_cons_of_mem _ hb, hr⟩

theorem exists_of_mem_right {l : List α} {u : List β} (h : List.Forall₂ R l u) {b : β} (hb : b ∈ u) :
    ∃ a ∈ l, R a b :=
  exists_of_mem_left h.flip hb

/-- Each entry takes its companion along. -/
theorem exists_perm_zip {l l' : List α} (hp : l.Perm l') {u : List β} (h : List.Forall₂ R l u) :
    ∃ u', List.Forall₂ R l' u' ∧ (l.zip u).Perm (l'.zip u') := by
  induction hp generalizing u with
  | nil =>
    cases h
    exact ⟨[], .nil, .refl _⟩
  | cons a _ ih =>
    obtain ⟨b, u, hab, hu, rfl⟩ := List.forall₂_cons_left_iff.mp h
    obtain ⟨u', hu', hzip⟩ := ih hu
    exact ⟨b :: u', .cons hab hu', hzip.cons (a, b)⟩
  | swap a₁ a₂ l =>
    obtain ⟨b₂, _, h₂, hrest, rfl⟩ := List.forall₂_cons_left_iff.mp h
    obtain ⟨b₁, u, h₁, hu, rfl⟩ := List.forall₂_cons_left_iff.mp hrest
    exact ⟨b₁ :: b₂ :: u, .cons h₁ (.cons h₂ hu), .swap _ _ _⟩
  | trans _ _ ih₁ ih₂ =>
    obtain ⟨v, hv, hfirst⟩ := ih₁ h
    obtain ⟨u', hu', hsecond⟩ := ih₂ hv
    exact ⟨u', hu', hfirst.trans hsecond⟩

end ModuleScaffold.Paired
