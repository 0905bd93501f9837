import ModuleScaffold.Json.Lexeme

/-! # Passages through a text

A reader that succeeds has gone from one text to a shorter one. The readers of documents look at no more than one
character behind the place where they stop, so that they go the same way through every text with the same front.
Passages compose, and with them the laws of readers. -/

namespace ModuleScaffold.Json

/-- The ways of going from a text to what is left of it. -/
abbrev Passage := List Char → List Char → Prop

namespace Passage

/-- At least `n` characters stand between a text and what is left of it, and the passage takes the same ones again
from every text in which the same character follows them. -/
def Takes (n : Nat) (R : Passage) (s rest : List Char) : Prop :=
  ∃ taken, n ≤ taken.length ∧ s = taken ++ rest ∧ ∀ t, t.head? = rest.head? → R (taken ++ t) t

/-- The same, whatever follows. -/
def TakesAlways (n : Nat) (R : Passage) (s rest : List Char) : Prop :=
  ∃ taken, n ≤ taken.length ∧ s = taken ++ rest ∧ ∀ t, R (taken ++ t) t

def IsLocal (n : Nat) (R : Passage) : Prop := ∀ ⦃s rest⦄, R s rest → Takes n R s rest

def IsClosed (n : Nat) (R : Passage) : Prop := ∀ ⦃s rest⦄, R s rest → TakesAlways n R s rest

/-- One passage after another. -/
def Then (R Q : Passage) : Passage := fun s rest => ∃ middle, R s middle ∧ Q middle rest

variable {n m : Nat} {R Q : Passage} {s rest : List Char}

theorem IsLocal.length_le (h : IsLocal n R) (hr : R s rest) : rest.length + n ≤ s.length := by
  obtain ⟨taken, hn, rfl, -⟩ := h hr
  rw [List.length_append]
  omega

theorem IsClosed.isLocal (h : IsClosed n R) : IsLocal n R := by
  intro s rest hr
  obtain ⟨taken, hn, hs, hagain⟩ := h hr
  exact ⟨taken, hn, hs, fun t _ => hagain t⟩

theorem IsLocal.weaken (h : IsLocal n R) (hm : m ≤ n) : IsLocal m R := by
  intro s rest hr
  obtain ⟨taken, hn, hs, hagain⟩ := h hr
  exact ⟨taken, by omega, hs, hagain⟩

/-- A passage that is one of the ways in which another one goes. -/
theorem IsLocal.via (h : IsLocal n R) (hr : R s rest) (hm : m ≤ n) (hq : ∀ ⦃x t⦄, R x t → Q x t) :
    Takes m Q s rest := by
  obtain ⟨taken, hn, hs, hagain⟩ := h hr
  exact ⟨taken, by omega, hs, fun t ht => hq (hagain t ht)⟩

theorem IsClosed.via (h : IsClosed n R) (hr : R s rest) (hm : m ≤ n) (hq : ∀ ⦃x t⦄, R x t → Q x t) :
    TakesAlways m Q s rest := by
  obtain ⟨taken, hn, hs, hagain⟩ := h hr
  exact ⟨taken, by omega, hs, fun t => hq (hagain t)⟩

/-- What follows the first part of a text begins alike where the texts behind it do. -/
theorem head?_append_congr (taken : List Char) {t rest : List Char} (h : t.head? = rest.head?) :
    (taken ++ t).head? = (taken ++ rest).head? := by
  cases taken with
  | nil => exact h
  | cons c taken => rfl

theorem IsLocal.then (hr : IsLocal n R) (hq : IsLocal m Q) : IsLocal (n + m) (R.Then Q) := by
  rintro s rest ⟨middle, hfirst, hsecond⟩
  obtain ⟨taken, hn, rfl, hagain⟩ := hr hfirst
  obtain ⟨more, hm, rfl, hmore⟩ := hq hsecond
  refine ⟨taken ++ more, by rw [List.length_append]; omega, (List.append_assoc _ _ _).symm, ?_⟩
  intro t ht
  rw [List.append_assoc]
  exact ⟨more ++ t, hagain _ (head?_append_congr more ht), hmore t ht⟩

/-- A passage is closed when it ends with one that takes something whatever follows. -/
theorem IsLocal.thenClosed (hr : IsLocal n R) (hq : IsClosed (m + 1) Q) : IsClosed (n + m + 1) (R.Then Q) := by
  rintro s rest ⟨middle, hfirst, hsecond⟩
  obtain ⟨taken, hn, rfl, hagain⟩ := hr hfirst
  obtain ⟨more, hm, rfl, hmore⟩ := hq hsecond
  refine ⟨taken ++ more, by rw [List.length_append]; omega, (List.append_assoc _ _ _).symm, ?_⟩
  intro t
  rw [List.append_assoc]
  refine ⟨more ++ t, hagain _ ?_, hmore t⟩
  obtain ⟨c, more, rfl⟩ := List.exists_cons_of_length_pos (by omega : 0 < more.length)
  rfl

/-- A passage that goes on as another one does behind some first characters, as far as the next one decides it. -/
theorem IsLocal.behind (h : IsLocal n R) (front : List Char) (hr : R s rest) (hm : m ≤ front.length + n)
    (hq : ∀ ⦃x t⦄, x.head? = s.head? → R x t → Q (front ++ x) t) : Takes m Q (front ++ s) rest := by
  obtain ⟨taken, hn, rfl, hagain⟩ := h hr
  refine ⟨front ++ taken, by rw [List.length_append]; omega, (List.append_assoc _ _ _).symm, ?_⟩
  intro t ht
  rw [List.append_assoc]
  exact hq (head?_append_congr taken ht) (hagain t ht)

theorem TakesAlways.behind (h : TakesAlways n R s rest) (front : List Char) (hm : m ≤ front.length + n)
    (hq : ∀ ⦃x t⦄, R x t → Q (front ++ x) t) : TakesAlways m Q (front ++ s) rest := by
  obtain ⟨taken, hn, rfl, hagain⟩ := h
  refine ⟨front ++ taken, by rw [List.length_append]; omega, (List.append_assoc _ _ _).symm, ?_⟩
  intro t
  rw [List.append_assoc]
  exact hq (hagain t)

/-- A passage that is entered behind its first character. -/
theorem IsLocal.tail (h : IsLocal (n + 1) R) (c : Char) : IsLocal n fun s rest => R (c :: s) rest := by
  intro s rest hr
  obtain ⟨taken, hn, hs, hagain⟩ := h hr
  obtain ⟨d, taken, rfl⟩ := List.exists_cons_of_length_pos (by omega : 0 < taken.length)
  obtain ⟨rfl, rfl⟩ := List.cons.inj hs
  exact ⟨taken, by simpa using hn, rfl, hagain⟩

/-- A passage that stops before a character that is then taken. -/
theorem IsLocal.thenChar (h : IsLocal n R) (c : Char) : IsClosed (n + 1) fun s rest => R s (c :: rest) := by
  intro s rest hr
  obtain ⟨taken, hn, rfl, hagain⟩ := h hr
  refine ⟨taken ++ [c], by rw [List.length_append, List.length_singleton]; omega, by simp, ?_⟩
  intro t
  rw [List.append_assoc]
  exact hagain (c :: t) rfl

/-! ## Single steps -/

/-- Nothing is taken where the text fits, which its next character decides. -/
theorem isLocal_stay {fits : List Char → Prop} (h : ∀ {s t : List Char}, t.head? = s.head? → fits s → fits t) :
    IsLocal 0 fun s rest => rest = s ∧ fits s := by
  rintro s rest ⟨rfl, hfits⟩
  exact ⟨[], Nat.zero_le _, rfl, fun t ht => ⟨rfl, h ht hfits⟩⟩

/-- The run of characters of some kind at the front of a text. -/
theorem isLocal_run (p : Char → Bool) (run : List Char) :
    IsLocal 0 fun s rest => s.takeWhile p = run ∧ s.dropWhile p = rest := by
  rintro s rest ⟨rfl, rfl⟩
  induction s with
  | nil =>
    refine ⟨[], Nat.zero_le _, rfl, ?_⟩
    intro t ht
    rw [List.head?_eq_none_iff.mp ht]
    exact ⟨rfl, rfl⟩
  | cons c s ih =>
    cases hc : p c with
    | true =>
      obtain ⟨taken, -, hs, hagain⟩ := ih
      rw [List.takeWhile_cons_of_pos hc, List.dropWhile_cons_of_pos hc]
      refine ⟨c :: taken, Nat.zero_le _, congrArg (c :: ·) hs, ?_⟩
      intro t ht
      obtain ⟨htake, hdrop⟩ := hagain t ht
      exact ⟨(List.takeWhile_cons_of_pos hc).trans (congrArg (c :: ·) htake), (List.dropWhile_cons_of_pos hc).trans hdrop⟩
    | false =>
      have hneg : ¬p c = true := by simp [hc]
      rw [List.takeWhile_cons_of_neg hneg, List.dropWhile_cons_of_neg hneg]
      refine ⟨[], Nat.zero_le _, rfl, ?_⟩
      intro t ht
      obtain ⟨t, rfl⟩ := List.head?_eq_some_iff.mp ht
      exact ⟨List.takeWhile_cons_of_neg hneg, List.dropWhile_cons_of_neg hneg⟩

theorem isLocal_dropWhile (p : Char → Bool) : IsLocal 0 fun s rest => s.dropWhile p = rest := by
  intro s rest h
  exact (isLocal_run p _).behind [] ⟨rfl, h⟩ (Nat.zero_le _) fun _ _ _ hrun => hrun.2

end Passage

end ModuleScaffold.Json
